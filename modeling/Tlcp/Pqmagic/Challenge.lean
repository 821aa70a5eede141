import Tlcp.AigisSig.Sign
import Tlcp.MlDsa.Sign

/-!
# Tlcp.Pqmagic.Challenge

ML-DSA and Aigis-Sig draw a polynomial with a fixed number of coefficients `1` and `-1`
from a hash (`poly_challenge`, `challenge`).  `challenge_weights` is the exact
weight, and that `unpack_sig` of Aigis-Sig finds the challenge in an encoded
signature although it is stored by place and not in the order of the draws.
-/

namespace Tlcp

open BitPack Packed

/-- The challenge is read back, whatever vector and hints stand in front of it. -/
theorem AigisSig.unpackSig_challenge {p : ParamSet} {z : Fin p.l → Poly} {h : Fin p.k → Poly} {c : Poly}
    (h01 : ∀ i j, h i j = 0 ∨ h i j = 1) (hω : hintWeight h ≤ p.omega)
    (hc : ∀ i, c i = 0 ∨ c i = 1 ∨ c i = p.q - 1) (hw : rank c 256 ≤ 64) :
    (unpackSig p (packSig p z h c)).map SigParts.c = some c := by
  have hlen : (packVec (polyzPack p) z).length = p.l * 576 := by
    rw [length_packVec length_polyzPack, Nat.mul_comm]
  have hback := unpackC_pack hc hw []
  rw [List.append_nil] at hback
  simp only [unpackSig, packSig, List.append_assoc, List.drop_left' hlen, hback,
    List.drop_left' (length_packHints hω), unpackHints_pack h01 hω, Option.bind_eq_bind,
    Option.bind_some, Option.map_some]

/-- **Weights of challenges**: wherever the sampling ends, an ML-DSA challenge has
`TAU` nonzero coefficients and one of Aigis-Sig has sixty, all signs, and the
latter is what `unpack_sig` finds in any signature made with it. -/
theorem challenge_weights : (∀ x p fuel seed c, MlDsa.polyChallenge x p fuel seed = some c →
      Shuffle.weight c = p.tau ∧ ∀ j, c j = 0 ∨ c j = 1 ∨ c j = -1) ∧
    ∀ x p fuel mu w1 c, AigisSig.challenge x p fuel mu w1 = some c →
      Shuffle.weight c = 60 ∧ (∀ j, c j = 0 ∨ c j = 1 ∨ c j = p.q - 1) ∧
        ∀ z h, (∀ i j, h i j = 0 ∨ h i j = 1) → AigisSig.hintWeight h ≤ p.omega →
          (AigisSig.unpackSig p (AigisSig.packSig p z h c)).map AigisSig.SigParts.c = some c := by
  constructor
  · intro x p fuel seed c h
    have hdrawn := MlDsa.polyChallenge_drawn h
    exact ⟨hdrawn.weight_eq, hdrawn.sign⟩
  · intro x p fuel mu w1 c h
    obtain ⟨hsign, hrank⟩ := AigisSig.challenge_spec h
    exact ⟨(AigisSig.challenge_drawn h).weight_eq, hsign, fun z hints h01 hω =>
      AigisSig.unpackSig_challenge h01 hω hsign (by omega)⟩

/-- The challenges of the hashes under which the keys are zero. -/
theorem challenge_weights_fixed :
    (∃ c, MlDsa.polyChallenge MlDsa.fixedXof .mode65 1 [] = some c ∧ Shuffle.weight c = 49) ∧
      ∃ c, AigisSig.challenge AigisSig.fixedXof .params3 1 [] (fun _ _ => 0) = some c ∧
        Shuffle.weight c = 60 := by
  obtain ⟨c, hc⟩ := MlDsa.fixed_polyChallenge []
  obtain ⟨c', hc'⟩ := AigisSig.fixed_challenge [] fun _ _ => 0
  exact ⟨⟨c, hc, (challenge_weights.1 _ _ _ _ c hc).1⟩,
    c', hc', (challenge_weights.2 _ _ _ _ _ c' hc').1⟩

end Tlcp
