import Tlcp.AigisSig.SigBytes
import Tlcp.Lib.Shuffle
import Tlcp.Pqmagic.Xof

/-!
# Tlcp.AigisSig.Sampling

The samplers of `sign.c` and `poly.c`, which read groups of bytes from a
squeezed buffer and keep the values in range, and `challenge`, which draws a
polynomial with sixty signs.  A sampler that would read past the bytes it
squeezed returns nothing.
-/

namespace Tlcp.AigisSig

open Octets Butterfly BitPack

variable {pos t nonce : ℕ} {ts : List ℕ} {P : ℕ → Prop} {seed : Bytes}

/-- A buffer with another one behind its first `n` bytes. -/
def extend (b : ℕ → ℕ) (n : ℕ) (b' : ℕ → ℕ) : ℕ → ℕ := fun i => if i < n then b i else b' (i - n)

/-! ## rejection loops -/

/-- What a rejection loop does with a group of bytes: the candidates in it, and
the value of one that is kept. -/
structure Sampler where
  size : ℕ
  group : (ℕ → ℕ) → List ℕ
  keep : ℕ → Option ℕ

namespace Sampler

variable (s : Sampler)

/-- `if (… && ctr < len) a[ctr++] = …`, or without the bound. -/
def push (len : Option ℕ) (a : List ℕ) (t : ℕ) : List ℕ := match s.keep t with
  | some x => if len.all (a.length < ·) then a ++ [x] else a
  | none => a

/-- A round that stores all it keeps. -/
def fill (a ts : List ℕ) : List ℕ := ts.foldl (s.push none) a

/-- A round that tests `ctr < len` before all but the first. -/
def fillTo (len : ℕ) (a : List ℕ) : List ℕ → List ℕ
  | [] => a
  | t :: ts => ts.foldl (s.push (some len)) (s.push none a t)

/-- `do … while (ctr < stop)` over the first `limit` bytes of a buffer.  No loop
takes more rounds than there are bytes. -/
def rounds (step : List ℕ → List ℕ → List ℕ) (stop : ℕ) (buf : ℕ → ℕ) (limit : ℕ) :
    ℕ → ℕ → List ℕ → Option (ℕ × List ℕ)
  | 0, _, _ => none
  | n + 1, pos, a =>
    if limit < pos + s.size then none
    else
      let a := step a (s.group fun j => buf (pos + j))
      if a.length < stop then rounds step stop buf limit n (pos + s.size) a
      else some (pos + s.size, a)

/-- The two loops of a sampler for `len` values that takes up to `slack` in one
round. -/
def twoLoops (slack len : ℕ) (buf : ℕ → ℕ) (limit : ℕ) : Option (ℕ × List ℕ) := do
  let (pos, a) ← s.rounds s.fill (len - slack) buf limit limit 0 []
  s.rounds (s.fillTo len) len buf limit limit pos a

variable {s}

variable {a : List ℕ} {x : ℕ}

theorem mem_push {len : Option ℕ} (hx : x ∈ s.push len a t) :
    x ∈ a ∨ s.keep t = some x := by
  unfold push at hx
  split at hx
  · next y hy =>
    split at hx
    · rcases List.mem_append.mp hx with hx | hx
      · exact .inl hx
      · exact .inr (by rw [hy, List.mem_singleton.mp hx])
    · exact .inl hx
  · exact .inl hx

theorem mem_foldl_push {len : Option ℕ} (hx : x ∈ ts.foldl (s.push len) a) :
    x ∈ a ∨ ∃ t ∈ ts, s.keep t = some x := by
  induction ts generalizing a with
  | nil => exact .inl hx
  | cons t ts ih =>
    rcases ih hx with hx | ⟨t', ht', hx⟩
    · exact (mem_push hx).imp_right fun h => ⟨t, List.mem_cons_self, h⟩
    · exact .inr ⟨t', List.mem_cons_of_mem _ ht', hx⟩

theorem mem_fillTo {len : ℕ} (hx : x ∈ s.fillTo len a ts) :
    x ∈ a ∨ ∃ t ∈ ts, s.keep t = some x := by
  cases ts with
  | nil => exact .inl hx
  | cons t ts =>
    rcases mem_foldl_push hx with hx | ⟨t', ht', hx⟩
    · exact (mem_push hx).imp_right fun h => ⟨t, List.mem_cons_self, h⟩
    · exact .inr ⟨t', List.mem_cons_of_mem _ ht', hx⟩

/-- A loop that ends has its values, each of them one that the sampler keeps. -/
theorem rounds_spec {step : List ℕ → List ℕ → List ℕ} {stop : ℕ} {buf : ℕ → ℕ}
    (hstep : ∀ a pos x, x ∈ step a (s.group fun j => buf (pos + j)) → x ∈ a ∨ P x)
    {limit n pos' : ℕ} {a' : List ℕ} (ha : ∀ x ∈ a, P x)
    (h : s.rounds step stop buf limit n pos a = some (pos', a')) :
    stop ≤ a'.length ∧ ∀ x ∈ a', P x := by
  induction n generalizing pos a with
  | zero => contradiction
  | succ n ih =>
    have hnext : ∀ x ∈ step a (s.group fun j => buf (pos + j)), P x := by
      intro x hx
      exact (hstep _ _ x hx).elim (ha x) id
    unfold rounds at h
    split at h
    · contradiction
    · simp only at h
      split at h
      · exact ih hnext h
      · next hstop =>
        obtain ⟨-, rfl⟩ := Prod.mk.inj (Option.some.inj h)
        exact ⟨Nat.not_lt.mp hstop, hnext⟩

theorem twoLoops_spec (hkeep : ∀ t x, s.keep t = some x → P x) {slack len : ℕ}
    {buf : ℕ → ℕ} {limit : ℕ} (h : s.twoLoops slack len buf limit = some (pos, a)) :
    len ≤ a.length ∧ ∀ x ∈ a, P x := by
  simp only [twoLoops, Option.bind_eq_bind, Option.bind_eq_some_iff] at h
  obtain ⟨⟨pos₁, a₁⟩, h₁, h₂⟩ := h
  have hkept : ∀ (ts : List ℕ) x, (∃ t ∈ ts, s.keep t = some x) → P x :=
    fun _ x ⟨t, _, ht⟩ => hkeep t x ht
  have hfirst := rounds_spec (P := P) (fun a _ x hx => (mem_foldl_push hx).imp_right (hkept _ x))
    (by simp) h₁
  exact rounds_spec (fun a _ x hx => (mem_fillTo hx).imp_right (hkept _ x)) hfirst.2 h₂

/-- A loop returns when the bytes are enough for the rounds it takes. -/
theorem rounds_returns (step : List ℕ → List ℕ → List ℕ) (stop : ℕ) (buf : ℕ → ℕ) (limit fuel pos : ℕ)
    (a : List ℕ) {g : ℕ} (n : ℕ)
    (hgrow : ∀ a pos, a.length + g ≤ (step a (s.group fun j => buf (pos + j))).length)
    (hn : stop ≤ a.length + g * (n + 1)) (hlimit : pos + s.size * (n + 1) ≤ limit) (hfuel : n < fuel) :
    ∃ r, s.rounds step stop buf limit fuel pos a = some r ∧ r.1 ≤ pos + s.size * (n + 1) := by
  induction n generalizing fuel pos a with
  | zero =>
    obtain ⟨fuel, rfl⟩ : ∃ f, fuel = f + 1 := ⟨fuel - 1, by omega⟩
    have hg := hgrow a pos
    rw [rounds, if_neg (by omega)]
    simp only
    rw [if_neg (by omega)]
    exact ⟨_, rfl, by simp⟩
  | succ n ih =>
    obtain ⟨fuel, rfl⟩ : ∃ f, fuel = f + 1 := ⟨fuel - 1, by omega⟩
    have hg := hgrow a pos
    rw [Nat.mul_succ] at hn hlimit
    rw [rounds, if_neg (by omega)]
    simp only
    split
    · obtain ⟨r, hr, hle⟩ := ih fuel (pos + s.size) (step a (s.group fun j => buf (pos + j)))
        (by omega) (by omega) (by omega)
      exact ⟨r, hr, by rw [Nat.mul_succ]; omega⟩
    · exact ⟨_, rfl, by rw [Nat.mul_succ]; omega⟩

theorem length_le_foldl_push (len : Option ℕ) (a ts : List ℕ) : a.length ≤ (ts.foldl (s.push len) a).length := by
  induction ts generalizing a with
  | nil => exact le_rfl
  | cons t ts ih =>
    refine le_trans ?_ (ih _)
    unfold push
    split
    · split <;> simp
    · exact le_rfl

theorem length_push_none (h : s.keep t = some x) :
    (s.push none a t).length = a.length + 1 := by
  simp [push, h]

theorem length_fill (h : ∀ t ∈ ts, ∃ x, s.keep t = some x ∧ P x) :
    (s.fill a ts).length = a.length + ts.length := by
  induction ts generalizing a with
  | nil => rfl
  | cons t ts ih =>
    obtain ⟨x, hx, -⟩ := h t List.mem_cons_self
    have hrest := ih (a := s.push none a t) fun t' ht' => h t' (List.mem_cons_of_mem _ ht')
    rw [length_push_none hx] at hrest
    rw [List.length_cons, Nat.add_comm ts.length, ← Nat.add_assoc]
    exact hrest

/-- Every group of a buffer has `g + 1` candidates, all kept with values in `P`. -/
structure Kept (s : Sampler) (buf : ℕ → ℕ) (P : ℕ → Prop) (g : ℕ) : Prop where
  keep : ∀ pos, ∀ t ∈ s.group fun j => buf (pos + j), ∃ x, s.keep t = some x ∧ P x
  length : ∀ pos, (s.group fun j => buf (pos + j)).length = g + 1

/-- All are kept with one value. -/
abbrev Constant (s : Sampler) (buf : ℕ → ℕ) (v g : ℕ) : Prop := s.Kept buf (· = v) g

theorem Constant.of_byte {b v g : ℕ} (hkeep : ∀ t ∈ s.group fun _ => b, s.keep t = some v)
    (hlen : (s.group fun _ => b).length = g + 1) : s.Constant (fun _ => b) v g :=
  ⟨fun _ t ht => ⟨v, hkeep t ht, rfl⟩, fun _ => hlen⟩

section

variable {g n : ℕ} {buf : ℕ → ℕ} (h : s.Kept buf P g)

include h

theorem Kept.of_kept (hx : ∃ t ∈ s.group fun j => buf (pos + j), s.keep t = some x) : P x := by
  obtain ⟨t, ht, hx⟩ := hx
  obtain ⟨y, hy, hP⟩ := h.keep pos t ht
  exact Option.some.inj (hy.symm.trans hx) ▸ hP

/-- On such a buffer a loop returns after the rounds that its values take. -/
theorem Kept.rounds_fill (n stop limit fuel pos : ℕ) (a : List ℕ) (ha : ∀ x ∈ a, P x)
    (hn : stop ≤ a.length + (g + 1) * (n + 1)) (hlimit : pos + s.size * (n + 1) ≤ limit) (hfuel : n < fuel) :
    ∃ r, s.rounds s.fill stop buf limit fuel pos a = some r ∧ r.1 ≤ pos + s.size * (n + 1) ∧
      stop ≤ r.2.length ∧ ∀ x ∈ r.2, P x := by
  obtain ⟨r, hr, hpos⟩ := rounds_returns s.fill stop buf limit fuel pos a n
    (fun a pos => by rw [length_fill (h.keep pos), h.length pos]) hn hlimit hfuel
  exact ⟨r, hr, hpos, rounds_spec (fun a pos x hx => (mem_foldl_push hx).imp_right h.of_kept) ha hr⟩

theorem Kept.length_lt_fillTo (len : ℕ) (a : List ℕ) (pos : ℕ) :
    a.length + 1 ≤ (s.fillTo len a (s.group fun j => buf (pos + j))).length := by
  have hlen := h.length pos
  have hkeep := h.keep pos
  cases hts : s.group fun j => buf (pos + j) with
  | nil => simp [hts] at hlen
  | cons t ts =>
    rw [hts] at hkeep
    obtain ⟨x, hx, -⟩ := hkeep t List.mem_cons_self
    rw [← length_push_none hx]
    exact length_le_foldl_push _ _ _

/-- The same for the two loops of a sampler. -/
theorem Kept.twoLoops (n slack len limit : ℕ) (hn : len - slack ≤ (g + 1) * (n + 1)) (hsize : 0 < s.size)
    (hlimit : s.size * (n + 1) + s.size * (slack + 1) ≤ limit) :
    ∃ r, s.twoLoops slack len buf limit = some r ∧ r.1 ≤ s.size * (n + 1) + s.size * (slack + 1) ∧
      len ≤ r.2.length ∧ ∀ x ∈ r.2, P x := by
  have hle : n + 1 ≤ s.size * (n + 1) ∧ slack + 1 ≤ s.size * (slack + 1) :=
    ⟨Nat.le_mul_of_pos_left _ hsize, Nat.le_mul_of_pos_left _ hsize⟩
  obtain ⟨⟨pos₁, a₁⟩, h₁, hpos₁, hlen₁, hval₁⟩ := h.rounds_fill n (len - slack) limit limit 0 [] (by simp)
    (by simpa using hn) (by omega) (by omega)
  simp only at hpos₁
  obtain ⟨⟨pos₂, a₂⟩, h₂, hpos₂⟩ := rounds_returns (s.fillTo len) len buf limit limit pos₁ a₁ slack
    (h.length_lt_fillTo len) (by simp only at hlen₁; omega) (by omega) (by omega)
  refine ⟨(pos₂, a₂), ?_, by simp only at hpos₂; omega,
    rounds_spec (fun a pos x hx => (mem_fillTo hx).imp_right h.of_kept) hval₁ h₂⟩
  rw [Sampler.twoLoops, h₁]
  exact h₂

end

end Sampler

/-- The coefficients that a sampler stored. -/
def ofSamples (a : List ℕ) : Poly := fun i => a.getD i 0

theorem ofSamples_spec {a : List ℕ} (h : 256 ≤ a.length ∧ ∀ x ∈ a, P x) (i : Fin 256) :
    P (ofSamples a i) := by
  have hi : i.val < a.length := lt_of_lt_of_le i.isLt h.1
  rw [ofSamples, List.getD_eq_getElem _ _ hi]
  exact h.2 _ (List.getElem_mem hi)

/-! ## samplers -/

/-- The loops of `expand_mat`. -/
def matSampler (p : ParamSet) : Sampler where
  size := 3
  group b := [(b 0 ||| b 1 <<< 8 ||| b 2 <<< 16) &&& (if p.qbits = 21 then 0x1FFFFF else 0x3FFFFF)]
  keep val := if val < p.q then some val else none

/-- The entry of row `i` and column `j` of `expand_mat`. -/
def expandEntry (x : Xof) (p : ParamSet) (rho : Bytes) (i j : ℕ) : Option Poly := do
  let inbuf := rho ++ [UInt8.ofNat (i + j <<< 4)]
  let outbuf := x.squeeze128 inbuf 0 0 1008
  let s := matSampler p
  if p.qbits = 21 then do
    let (_, a) ← s.rounds s.fill 256 outbuf 1008 1008 0 []
    some (ofSamples a)
  else do
    let (pos, a) ← s.rounds s.fill 225 outbuf 1008 1008 0 []
    let (outbuf, limit) :=
      if 1008 - pos < 258 then (extend outbuf 1008 (x.squeeze128 inbuf 1 1008 168), 1176)
      else (outbuf, 1008)
    let (_, a) ← s.rounds s.fill 256 outbuf limit limit pos a
    some (ofSamples a)

/-- `if (t <= 2*ETA) a[ctr++] = PARAM_Q + ETA - t`. -/
def keepEta (q eta t : ℕ) : Option ℕ := if t ≤ 2 * eta then some (q + eta - t) else none

/-- The loops of `rej_eta1`. -/
def eta1Sampler (p : ParamSet) : Sampler := if p.eta1 = 1 then
    { size := 1
      group := fun b => [b 0 &&& 0x03, b 0 >>> 2 &&& 0x03, b 0 >>> 4 &&& 0x03, b 0 >>> 6 &&& 0x03]
      keep := keepEta p.q p.eta1 }
  else
    { size := 3
      group := fun b => [b 0 &&& 0x07, b 0 >>> 3 &&& 0x07, b 0 >>> 6 ||| (b 1 &&& 0x1) <<< 2,
        b 1 >>> 1 &&& 0x07, b 1 >>> 4 &&& 0x07, b 1 >>> 7 ||| (b 2 &&& 0x3) <<< 1,
        b 2 >>> 2 &&& 0x07, b 2 >>> 5]
      keep := keepEta p.q p.eta1 }

/-- `poly_uniform_eta1`. -/
def polyUniformEta1 (x : Xof) (p : ParamSet) (seed : Bytes) (nonce : ℕ) : Option Poly := do
  let outbuf := x.squeeze256 (seed ++ [UInt8.ofNat nonce]) 0 0 272
  let (_, a) ← (eta1Sampler p).twoLoops (if p.eta1 = 1 then 4 else 8) 256 outbuf 272
  some (ofSamples a)

/-- The loops of `rej_eta2`. -/
def eta2Sampler (p : ParamSet) : Sampler where
  size := 1
  group b := if p.eta2 = 3 then [b 0 &&& 0x07, b 0 >>> 5] else [b 0 &&& 0x0F, b 0 >>> 4]
  keep := keepEta p.q p.eta2

/-- `poly_uniform_eta2`. -/
def polyUniformEta2 (x : Xof) (p : ParamSet) (seed : Bytes) (nonce : ℕ) : Option Poly := do
  let inbuf := seed ++ [UInt8.ofNat nonce]
  let outbuf := x.squeeze256 inbuf 0 0 272
  if p.eta2 = 3 then do
    let (_, a) ← (eta2Sampler p).twoLoops 2 256 outbuf 272
    some (ofSamples a)
  else do
    let (pos, a) ← (eta2Sampler p).twoLoops 2 223 outbuf 272
    let (outbuf, limit) :=
      if 272 - pos < 85 then (extend outbuf 272 (x.squeeze256 inbuf 1 272 136), 408)
      else (outbuf, 272)
    let (_, a') ← (eta2Sampler p).twoLoops 2 33 (fun i => outbuf (pos + i)) (limit - pos)
    some (ofSamples (a.take 223 ++ a'))

/-- The loops of `poly_uniform_gamma1m1`. -/
def gamma1Sampler (p : ParamSet) : Sampler where
  size := 5
  group b := [(b 0 ||| b 1 <<< 8 ||| b 2 <<< 16) &&& 0x3FFFF,
    (b 2 >>> 4 ||| b 3 <<< 4 ||| b 4 <<< 12) &&& 0x3FFFF]
  keep t := if t ≤ 2 * p.gamma1 then some (p.q + p.gamma1 - 1 - t) else none

/-- `poly_uniform_gamma1m1`; the nonce is a `uint16_t`. -/
def polyUniformGamma1m1 (x : Xof) (p : ParamSet) (seed : Bytes) (nonce : ℕ) : Option Poly := do
  let inbuf := seed ++ [UInt8.ofNat nonce, UInt8.ofNat ((nonce % 2 ^ 16) >>> 8)]
  let outbuf := fun i => (x.output 680 inbuf i).toNat
  let (_, a) ← (gamma1Sampler p).twoLoops 2 256 outbuf 680
  some (ofSamples a)

section

variable {x : Xof} {p : ParamSet} {a : Poly}

theorem expandEntry_lt {rho : Bytes} {i j : ℕ} (h : expandEntry x p rho i j = some a) (n : Fin 256) :
    a n < p.q := by
  have hstep : ∀ ts a x, x ∈ (matSampler p).fill a ts → x ∈ a ∨ x < p.q := by
    intro ts a x hx
    refine (Sampler.mem_foldl_push hx).imp_right ?_
    rintro ⟨t, -, ht⟩
    simp only [matSampler, Option.ite_none_right_eq_some, Option.some.injEq] at ht
    exact ht.2 ▸ ht.1
  simp only [expandEntry, Option.bind_eq_bind] at h
  split at h
  · obtain ⟨⟨pos, l⟩, h₁, h₂⟩ := Option.bind_eq_some_iff.mp h
    rw [← Option.some.inj h₂]
    exact ofSamples_spec (Sampler.rounds_spec (fun a _ => hstep _ a) (by simp) h₁) n
  · obtain ⟨⟨pos, l⟩, h₁, h₂⟩ := Option.bind_eq_some_iff.mp h
    have hfirst := Sampler.rounds_spec (fun a _ => hstep _ a) (by simp) h₁
    obtain ⟨⟨pos', l'⟩, h₂, h₃⟩ := Option.bind_eq_some_iff.mp h₂
    rw [← Option.some.inj h₃]
    exact ofSamples_spec (Sampler.rounds_spec (fun a _ => hstep _ a) hfirst.2 h₂) n

theorem keepEta_range {q eta y : ℕ} (h : keepEta q eta t = some y) : q ≤ y + eta ∧ y ≤ q + eta := by
  simp only [keepEta, Option.ite_none_right_eq_some, Option.some.injEq] at h
  omega

theorem polyUniformEta1_range (h : polyUniformEta1 x p seed nonce = some a)
    (i : Fin 256) : p.q ≤ a i + p.eta1 ∧ a i ≤ p.q + p.eta1 := by
  obtain ⟨⟨pos, l⟩, h₁, h₂⟩ := Option.bind_eq_some_iff.mp h
  rw [← Option.some.inj h₂]
  have hkeep : ∀ t y, (eta1Sampler p).keep t = some y → p.q ≤ y + p.eta1 ∧ y ≤ p.q + p.eta1 := by
    intro t y ht
    unfold eta1Sampler at ht
    split at ht <;> exact keepEta_range ht
  exact ofSamples_spec (P := fun y => p.q ≤ y + p.eta1 ∧ y ≤ p.q + p.eta1)
    (Sampler.twoLoops_spec hkeep h₁) i

theorem polyUniformEta2_range (h : polyUniformEta2 x p seed nonce = some a)
    (i : Fin 256) : p.q ≤ a i + p.eta2 ∧ a i ≤ p.q + p.eta2 := by
  have hkeep : ∀ t y, (eta2Sampler p).keep t = some y → p.q ≤ y + p.eta2 ∧ y ≤ p.q + p.eta2 :=
    fun t y ht => keepEta_range ht
  simp only [polyUniformEta2, Option.bind_eq_bind] at h
  split at h
  · obtain ⟨⟨pos, l⟩, h₁, h₂⟩ := Option.bind_eq_some_iff.mp h
    rw [← Option.some.inj h₂]
    exact ofSamples_spec (P := fun y => p.q ≤ y + p.eta2 ∧ y ≤ p.q + p.eta2)
      (Sampler.twoLoops_spec hkeep h₁) i
  · obtain ⟨⟨pos, l⟩, h₁, h₂⟩ := Option.bind_eq_some_iff.mp h
    obtain ⟨⟨pos', l'⟩, h₂, h₃⟩ := Option.bind_eq_some_iff.mp h₂
    rw [← Option.some.inj h₃]
    obtain ⟨hlen, hl⟩ := Sampler.twoLoops_spec hkeep h₁
    obtain ⟨hlen', hl'⟩ := Sampler.twoLoops_spec hkeep h₂
    refine ofSamples_spec (P := fun y => p.q ≤ y + p.eta2 ∧ y ≤ p.q + p.eta2) ⟨?_, ?_⟩ i
    · simp only [List.length_append, List.length_take_of_le hlen]
      omega
    · intro y hy
      rcases List.mem_append.mp hy with hy | hy
      · exact hl y (List.mem_of_mem_take hy)
      · exact hl' y hy

theorem polyUniformGamma1m1_lt
    (h : polyUniformGamma1m1 x p seed nonce = some a) (i : Fin 256) : a i < 2 * p.q := by
  obtain ⟨⟨pos, l⟩, h₁, h₂⟩ := Option.bind_eq_some_iff.mp h
  rw [← Option.some.inj h₂]
  refine ofSamples_spec (P := fun y => y < 2 * p.q) (Sampler.twoLoops_spec ?_ h₁) i
  intro t y ht
  have hg := gamma1_lt p
  simp only [gamma1Sampler, Option.ite_none_right_eq_some, Option.some.injEq] at ht
  omega

/-- **The mask always fits**: no candidate of `poly_uniform_gamma1m1` is refused, so
680 bytes are enough, and each coefficient is in `[-GAMMA1, GAMMA1)`. -/
theorem polyUniformGamma1m1_total (x : Xof) (p : ParamSet) (seed : Bytes) (nonce : ℕ) :
    ∃ a, polyUniformGamma1m1 x p seed nonce = some a ∧
      ∀ i, p.q ≤ a i + p.gamma1 ∧ a i < p.q + p.gamma1 := by
  have hkept : ∀ buf, (gamma1Sampler p).Kept buf (fun y => p.q ≤ y + p.gamma1 ∧ y < p.q + p.gamma1) 1 := by
    refine fun buf => ⟨fun pos t ht => ?_, fun _ => rfl⟩
    have hg := gamma1_lt p
    -- a candidate has 18 bits, and twice `GAMMA1` is the 19th
    have hlt : t < 2 ^ 18 := by
      simp only [gamma1Sampler, List.mem_cons, List.not_mem_nil, or_false] at ht
      obtain rfl | rfl := ht <;> exact Nat.and_lt_two_pow _ (by decide)
    exact ⟨_, if_pos (by omega), by omega, by omega⟩
  simp only [polyUniformGamma1m1]
  obtain ⟨⟨pos, l⟩, hrun, -, hl⟩ := (hkept _).twoLoops 126 2 256 680 (by decide) (by decide : 0 < 5)
    (by decide : 5 * 127 + 5 * 3 ≤ 680)
  rw [hrun]
  exact ⟨ofSamples l, rfl, ofSamples_spec hl⟩

end

/-! ## the challenge -/

/-- The loop of `challenge` that draws the next byte not above `i`; it may
squeeze another block. -/
def drawByte (blocks : ℕ → ℕ → ℕ) (i : ℕ) : ℕ → ℕ → ℕ → Option (ℕ × ℕ × ℕ)
  | 0, _, _ => none
  | fuel + 1, block, pos =>
    let (block, pos) := if 136 ≤ pos then (block + 1, 0) else (block, pos)
    let b := blocks block pos
    if i < b then drawByte blocks i fuel block (pos + 1) else some (b, block, pos + 1)

/-- The variables of the loop of `challenge`. -/
structure Drawing where
  block : ℕ
  pos : ℕ
  mask : ℕ
  c : Poly

/-- The step of the loop of `challenge` for the coefficient `i`. -/
def challengeStep (p : ParamSet) (blocks : ℕ → ℕ → ℕ) (signs fuel : ℕ) (d : Drawing) (i : ℕ) :
    Option Drawing := do
  let (b, block, pos) ← drawByte blocks i fuel d.block d.pos
  let c := put d.c i (cell d.c b)
  let c := put c b (if signs &&& d.mask ≠ 0 then p.q - 1 else 1)
  some ⟨block, pos, d.mask <<< 1 % 2 ^ 64, c⟩

/-- `challenge`. -/
def challenge (x : Xof) (p : ParamSet) (fuel : ℕ) (mu : Bytes) (w1 : Fin p.k → Poly) : Option Poly := do
  let inbuf := mu ++ packVec polyw1Pack w1
  let blocks := fun block => x.squeeze256 inbuf block (136 * block) 136
  let signs := (List.range 8).foldl (fun signs i => signs ||| blocks 0 i <<< (8 * i)) 0
  let d ← (List.range' 196 60).foldlM (challengeStep p blocks signs fuel) ⟨0, 8, 1, fun _ => 0⟩
  some d.c

/-- The positions of the nonzero coefficients. -/
def support (c : Poly) : Finset (Fin 256) := Finset.univ.filter fun j => c j ≠ 0

section

variable {p : ParamSet} {blocks : ℕ → ℕ → ℕ} {signs fuel : ℕ}

theorem drawByte_le {i block : ℕ} {r : ℕ × ℕ × ℕ}
    (h : drawByte blocks i fuel block pos = some r) : r.1 ≤ i := by
  induction fuel generalizing block pos with
  | zero => contradiction
  | succ fuel ih =>
    unfold drawByte at h
    generalize (if 136 ≤ pos then (block + 1, 0) else (block, pos)) = next at h
    simp only at h
    split at h
    · exact ih h
    · next hb =>
      rw [← Option.some.inj h]
      exact Nat.not_lt.mp hb

/-- What a step of the loop does to the coefficients. -/
theorem challengeStep_swap {d d' : Drawing} {i : ℕ} (h : challengeStep p blocks signs fuel d i = some d') :
    ∃ b ≤ i, ∃ v, (v = 1 ∨ v = p.q - 1) ∧ d'.c = put (put d.c i (cell d.c b)) b v := by
  simp only [challengeStep, Option.bind_eq_bind, Option.bind_eq_some_iff, Option.some.injEq] at h
  obtain ⟨⟨b, block, pos⟩, hb, rfl⟩ := h
  refine ⟨b, drawByte_le hb, _, ?_, rfl⟩
  split <;> simp

theorem rank_eq_card (c : Poly) : rank c 256 = (support c).card := by
  have hmap : (Finset.range 256).filter (fun j => cell c j ≠ 0) =
      (support c).map Fin.valEmbedding := by
    ext j
    simp only [Finset.mem_filter, Finset.mem_range, support, Finset.mem_map, Finset.mem_univ, true_and,
      Fin.valEmbedding_apply]
    constructor
    · rintro ⟨hj, hc⟩
      exact ⟨⟨j, hj⟩, by rwa [cell_of_lt c hj] at hc, rfl⟩
    · rintro ⟨i, hc, rfl⟩
      exact ⟨i.isLt, by rwa [cell_val]⟩
  rw [rank, Nat.count_eq_card_filter_range, hmap, Finset.card_map]

/-- **The challenge** has sixty coefficients, each one of the signs. -/
theorem challenge_drawn {x : Xof} {mu : Bytes} {w1 : Fin p.k → Poly} {c : Poly}
    (h : challenge x p fuel mu w1 = some c) :
    Shuffle.Drawn (fun v => v = 1 ∨ v = p.q - 1) c 256 60 := by
  obtain ⟨d, hd, hc⟩ := Option.bind_eq_some_iff.mp h
  rw [← Option.some.inj hc]
  exact Shuffle.Drawn.loop Drawing.c (by cases p <;> decide) (fun _ _ _ => challengeStep_swap) le_rfl rfl hd

theorem challenge_spec {x : Xof} {mu : Bytes} {w1 : Fin p.k → Poly} {c : Poly}
    (h : challenge x p fuel mu w1 = some c) :
    (∀ j, c j = 0 ∨ c j = 1 ∨ c j = p.q - 1) ∧ rank c 256 = 60 :=
  ⟨(challenge_drawn h).sign, (rank_eq_card c).trans (challenge_drawn h).weight_eq⟩

theorem challengeLoop_returns (p : ParamSet) (signs n : ℕ) {blocks : ℕ → ℕ → ℕ}
    (h : ∀ block pos, blocks block pos ≤ 196) (d : Drawing) :
    ∃ d', (List.range' 196 n).foldlM (challengeStep p blocks signs 1) d = some d' := by
  induction n with
  | zero => exact ⟨d, rfl⟩
  | succ n ih =>
    obtain ⟨d', hd'⟩ := ih
    rw [List.range'_concat, List.foldlM_append, hd', Nat.one_mul]
    have hdraw : ∀ block pos, drawByte blocks (196 + n) 1 block pos ≠ none := by
      intro block pos
      unfold drawByte
      generalize (if 136 ≤ pos then (block + 1, 0) else (block, pos)) = next
      have hb := h next.1 next.2
      simp only
      rw [if_neg (by omega)]
      simp
    obtain ⟨r, hr⟩ := Option.ne_none_iff_exists'.mp (hdraw d'.block d'.pos)
    simp [challengeStep, hr]

/-- `challenge` returns where no byte is refused. -/
theorem challenge_returns {x : Xof} (mu : Bytes) (w1 : Fin p.k → Poly)
    (h : ∀ inbuf block pos, x.squeeze256 inbuf block (136 * block) 136 pos ≤ 196) :
    ∃ c, challenge x p 1 mu w1 = some c := by
  obtain ⟨d, hd⟩ := challengeLoop_returns p _ 60 (h (mu ++ packVec polyw1Pack w1)) ⟨0, 8, 1, fun _ => 0⟩
  exact ⟨d.c, Option.bind_eq_some_iff.mpr ⟨d, hd, rfl⟩⟩

end

end Tlcp.AigisSig
