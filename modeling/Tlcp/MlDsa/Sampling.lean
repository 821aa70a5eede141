import Tlcp.Lib.Rejection
import Tlcp.Lib.Shuffle
import Tlcp.MlDsa.Packing
import Tlcp.Pqmagic.Xof

/-!
# Tlcp.MlDsa.Sampling

The samplers of `poly.c`.  Those that squeeze until they have enough are given
a bound on the number of their rounds, and so is the draw of a position of the
challenge; what they give does not depend on it.
-/

namespace Tlcp.MlDsa

open Octets Butterfly Packed Loop

/-- The input of `stream128_init` and `stream256_init`, or the front of `seed_nonce`. -/
def seedNonce (seed : Bytes) (nonce : ℕ) : Bytes := seed ++ [UInt8.ofNat nonce, UInt8.ofNat (nonce >>> 8)]

/-- The coefficients that a sampler stored. -/
def ofSamples (a : List ℤ) : Poly := fun i => a.getD i 0

/-! ## uniform polynomials -/

/-- `rej_uniform`. -/
def rejUniform : Rejection ℤ where
  size := 3
  group b := [(b 0 ||| b 1 <<< 8 ||| b 2 <<< 16) &&& 0x7FFFFF]
  keep t := if t < q then some (t : ℤ) else none

/-- The variables of `poly_uniform`, with the number of blocks squeezed after
the first ones. -/
structure Uniform where
  refills : ℕ
  buf : ℕ → ℕ
  buflen : ℕ
  a : List ℤ

/-- The first call of `rej_uniform` in `poly_uniform`. -/
def Uniform.start (x : Xof) (input : Bytes) : Uniform := let buf := x.squeeze128 input 0 0 840
  ⟨0, buf, 840, rejUniform.scan 256 buf 840 840 0 []⟩

/-- A round of the loop of `poly_uniform`: the bytes that `rej_uniform` left
go to the front of the next block. -/
def Uniform.next (x : Xof) (input : Bytes) (s : Uniform) : Uniform := let off := s.buflen % 3
  let block := x.squeeze128 input (s.refills + 1) (840 + 168 * s.refills) 168
  let buf := fun i => if i < off then s.buf (s.buflen - off + i) else block (i - off)
  let buflen := 168 + off
  ⟨s.refills + 1, buf, buflen, rejUniform.scan 256 buf buflen buflen 0 s.a⟩

/-- `poly_uniform`. -/
def polyUniform (x : Xof) (fuel : ℕ) (seed : Bytes) (nonce : ℕ) : Option Poly :=
  let input := seedNonce seed nonce
  (Rejection.fill 256 Uniform.a (Uniform.next x input) fuel (.start x input)).map ofSamples

/-! ## short polynomials -/

/-- `rej_eta`. -/
def rejEta (p : ParamSet) : Rejection ℤ where
  size := 1
  group b := [b 0 &&& 0x0F, b 0 >>> 4]
  keep t := match p with
    | .mode65 => if t < 9 then some (4 - t) else none
    | _ => if t < 15 then some (2 - (t - (205 * t) >>> 10 * 5 : ℕ)) else none

/-- The bytes of the first blocks of `poly_uniform_eta`. -/
def etaBuflen : ParamSet → ℕ
  | .mode65 => 272
  | _ => 136

/-- A round of the loop of `poly_uniform_eta`, on the number of blocks squeezed
after the first ones and the samples. -/
def etaNext (x : Xof) (p : ParamSet) (input : Bytes) (s : ℕ × List ℤ) : ℕ × List ℤ :=
  let buf := x.squeeze256 input (s.1 + 1) (etaBuflen p + 136 * s.1) 136
  (s.1 + 1, (rejEta p).scan 256 buf 136 136 0 s.2)

/-- `poly_uniform_eta`. -/
def polyUniformEta (x : Xof) (p : ParamSet) (fuel : ℕ) (seed : Bytes) (nonce : ℕ) : Option Poly :=
  let input := seedNonce seed nonce
  let buflen := etaBuflen p
  let buf := x.squeeze256 input 0 0 buflen
  (Rejection.fill 256 Prod.snd (etaNext x p input) fuel
    (0, (rejEta p).scan 256 buf buflen buflen 0 [])).map ofSamples

/-- `poly_uniform_gamma1`. -/
def polyUniformGamma1 (x : Xof) (p : ParamSet) (seed : Bytes) (nonce : ℕ) : Poly :=
  let buf := x.squeeze256 (seedNonce seed nonce) 0 0 680
  polyzUnpack p ((List.range 680).map fun i => UInt8.ofNat (buf i))

section

variable {x : Xof} {p : ParamSet} {fuel fuel' nonce : ℕ} {seed : Bytes} {a a' : Poly} {P : ℤ → Prop}

theorem ofSamples_spec {l : List ℤ} (h : 256 ≤ l.length ∧ ∀ y ∈ l, P y) (i : Fin 256) :
    P (ofSamples l i) := by
  have hi : i.val < l.length := lt_of_lt_of_le i.isLt h.1
  rw [ofSamples, List.getD_eq_getElem _ _ hi]
  exact h.2 _ (List.getElem_mem hi)

theorem polyUniform_range (h : polyUniform x fuel seed nonce = some a) (i : Fin 256) :
    0 ≤ a i ∧ a i < q := by
  obtain ⟨l, hl, rfl⟩ := Option.map_eq_some_iff.mp h
  have hkeep : ∀ t y, rejUniform.keep t = some y → 0 ≤ y ∧ y < q := by
    intro t y ht
    simp only [rejUniform, Option.ite_none_right_eq_some, Option.some.injEq] at ht
    omega
  refine ofSamples_spec (Rejection.fill_spec hl ?_ fun s hs => Rejection.scan_spec (fun _ t _ => hkeep t) hs) i
  exact Rejection.scan_spec (fun _ t _ => hkeep t) (by simp)

theorem polyUniform_unique (h : polyUniform x fuel seed nonce = some a)
    (h' : polyUniform x fuel' seed nonce = some a') : a = a' := by
  obtain ⟨l, hl, rfl⟩ := Option.map_eq_some_iff.mp h
  obtain ⟨l', hl', rfl⟩ := Option.map_eq_some_iff.mp h'
  rw [Rejection.fill_unique hl hl']

theorem rejEta_range {t : ℕ} {y : ℤ} (h : (rejEta p).keep t = some y) : -p.eta ≤ y ∧ y ≤ p.eta := by
  cases p
  all_goals
    simp only [rejEta, Option.ite_none_right_eq_some, Option.some.injEq, ParamSet.eta] at h ⊢
    omega

theorem polyUniformEta_range (h : polyUniformEta x p fuel seed nonce = some a) (i : Fin 256) :
    -p.eta ≤ a i ∧ a i ≤ p.eta := by
  obtain ⟨l, hl, rfl⟩ := Option.map_eq_some_iff.mp h
  have hkeep : ∀ t y, (rejEta p).keep t = some y → -p.eta ≤ y ∧ y ≤ p.eta := fun t y => rejEta_range
  refine ofSamples_spec (P := fun y => -p.eta ≤ y ∧ y ≤ p.eta)
    (Rejection.fill_spec hl ?_ fun s hs => Rejection.scan_spec (fun _ t _ => hkeep t) hs) i
  exact Rejection.scan_spec (fun _ t _ => hkeep t) (by simp)

end

/-! ## the challenge -/

/-- `do … while (b > i)` of `poly_challenge`, on the number of the block and the
position in it. -/
def drawPosition (blocks : ℕ → ℕ → ℕ) (i fuel : ℕ) (s : ℕ × ℕ) : Option (ℕ × ℕ × ℕ) := repeatUntil
    (fun (block, pos) =>
      let (block, pos) := if 136 ≤ pos then (block + 1, 0) else (block, pos)
      let b := blocks block pos
      some (if i < b then .inl (block, pos + 1) else .inr (b, block, pos + 1)))
    fuel s

/-- The variables of the loop of `poly_challenge`. -/
structure Drawing where
  block : ℕ
  pos : ℕ
  signs : ℕ
  c : Poly

/-- The step of the loop of `poly_challenge` for the coefficient `i`. -/
def challengeStep (blocks : ℕ → ℕ → ℕ) (fuel : ℕ) (s : Drawing) (i : ℕ) : Option Drawing := do
  let (b, block, pos) ← drawPosition blocks i fuel (s.block, s.pos)
  let c := put s.c i (cell s.c b)
  let c := put c b (1 - 2 * (s.signs &&& 1 : ℕ))
  some ⟨block, pos, s.signs >>> 1, c⟩

/-- `poly_challenge`. -/
def polyChallenge (x : Xof) (p : ParamSet) (fuel : ℕ) (seed : Bytes) : Option Poly := do
  let blocks := fun block => x.squeeze256 seed block (136 * block) 136
  let signs := (List.range 8).foldl (fun signs i => signs ||| blocks 0 i <<< (8 * i)) 0
  let s ← (List.range' (256 - p.tau) p.tau).foldlM (challengeStep blocks fuel) ⟨0, 8, signs, fun _ => 0⟩
  some s.c

section

variable {x : Xof} {p : ParamSet} {fuel : ℕ} {seed : Bytes} {c : Poly}

theorem drawPosition_le {blocks : ℕ → ℕ → ℕ} {i : ℕ} {s : ℕ × ℕ} {r : ℕ × ℕ × ℕ}
    (h : drawPosition blocks i fuel s = some r) : r.1 ≤ i := by
  refine repeatUntil_inv (P := fun _ => True) (Q := fun r : ℕ × ℕ × ℕ => r.1 ≤ i) (fun _ _ _ _ => trivial)
    ?_ trivial h
  intro ⟨block, pos⟩ b _ hb
  simp only [Option.some.injEq] at hb
  generalize (if 136 ≤ pos then (block + 1, 0) else (block, pos)) = next at hb
  split at hb
  · contradiction
  · next hle => exact Sum.inr.inj hb ▸ Nat.not_lt.mp hle

/-- What a step of the loop does to the coefficients. -/
theorem challengeStep_swap {blocks : ℕ → ℕ → ℕ} {s s' : Drawing} {i : ℕ}
    (h : challengeStep blocks fuel s i = some s') :
    ∃ b ≤ i, ∃ v, (v = 1 ∨ v = -1) ∧ s'.c = put (put s.c i (cell s.c b)) b v := by
  simp only [challengeStep, Option.bind_eq_bind, Option.bind_eq_some_iff, Option.some.injEq] at h
  obtain ⟨⟨b, block, pos⟩, hb, rfl⟩ := h
  refine ⟨b, drawPosition_le hb, _, ?_, rfl⟩
  have hbit : s.signs &&& 1 ≤ 1 := Nat.and_le_right
  omega

/-- **The challenge** has `TAU` coefficients, each one of the signs. -/
theorem polyChallenge_drawn (h : polyChallenge x p fuel seed = some c) :
    Shuffle.Drawn (fun v => v = 1 ∨ v = -1) c 256 p.tau := by
  simp only [polyChallenge, Option.bind_eq_bind, Option.bind_eq_some_iff, Option.some.injEq] at h
  obtain ⟨s, hs, rfl⟩ := h
  have htau : 256 - p.tau + p.tau = 256 := by cases p <;> rfl
  have hdrawn := Shuffle.Drawn.loop Drawing.c (S := fun v => v = 1 ∨ v = -1) (by decide)
    (fun _ _ _ => challengeStep_swap) htau.le rfl hs
  rwa [htau] at hdrawn

theorem polyChallenge_range (h : polyChallenge x p fuel seed = some c) (j : Fin 256) :
    -1 ≤ c j ∧ c j ≤ 1 := by
  rcases (polyChallenge_drawn h).sign j with hj | hj | hj <;> simp [hj]

/-- Bytes that are small enough for the first position are never drawn again. -/
theorem challengeStep_returns {blocks : ℕ → ℕ → ℕ} (hsmall : ∀ block pos, blocks block pos ≤ 256 - p.tau)
    (s : Drawing) {i : ℕ} (hi : 256 - p.tau ≤ i) : ∃ s', challengeStep blocks (fuel + 1) s i = some s' := by
  have hdraw : ∀ block pos, ¬i < blocks block pos := fun block pos =>
    Nat.not_lt.mpr ((hsmall block pos).trans hi)
  simp only [challengeStep, drawPosition, repeatUntil, hdraw, if_false, Option.bind_eq_bind, Option.bind_some]
  exact ⟨_, rfl⟩

theorem polyChallenge_returns
    (hsmall : ∀ block pos, x.squeeze256 seed block (136 * block) 136 pos ≤ 256 - p.tau) :
    ∃ c, polyChallenge x p (fuel + 1) seed = some c := by
  have hstep : ∀ s : Drawing, True → ∀ i ∈ List.range' (256 - p.tau) p.tau, ∃ s',
      challengeStep (fun block => x.squeeze256 seed block (136 * block) 136) (fuel + 1) s i = some s' ∧
        True := by
    intro s _ i hi
    obtain ⟨s', hs'⟩ := challengeStep_returns hsmall s (List.mem_range'_1.mp hi).1
    exact ⟨s', hs', trivial⟩
  obtain ⟨s, hs⟩ := foldlM_returns hstep (s := ⟨0, 8, (List.range 8).foldl
    (fun signs i => signs ||| x.squeeze256 seed 0 (136 * 0) 136 i <<< (8 * i)) 0, fun _ => 0⟩) trivial
  exact ⟨s.c, by simp only [polyChallenge, hs, Option.bind_eq_bind, Option.bind_some]⟩

end

end Tlcp.MlDsa
