import Tlcp.AigisSig.Polyvec
import Tlcp.AigisSig.Sampling
import Tlcp.Lib.Lattice
import Tlcp.Lib.Loop

/-!
# Tlcp.AigisSig.Sign

Keys, signatures and their verification (`sign.c`).  The loops that draw until something fits are given a bound; a
function that returns nothing has run out of it, or out of the bytes that a
sampler squeezed.

Main results:

* `sign_verifies`: what is signed verifies;
* `accepted_packed_iff`: which accepted signatures are the ones that their
  values pack to.
-/

namespace Tlcp.AigisSig

open Octets Butterfly BitPack Lattice Loop

/-! ## the functions -/

/-- `expand_mat`. -/
def expandMat (x : Xof) (p : ParamSet) (rho : Bytes) : Option (Fin p.k → Fin p.l → Poly) :=
  collect fun i => collect fun j => expandEntry x p rho i j

variable (p : ParamSet)

/-- The product of the matrix with a transformed vector, row by row. -/
def matVec (mat : Fin p.k → Fin p.l → Poly) (v : Fin p.l → Poly) : Fin p.k → Poly :=
  fun i => invnttFrominvmont p (polyveclPointwiseAccInvmontgomery p (mat i) v)

/-- The product of a transformed polynomial with a transformed vector. -/
def polyMulVec {n : ℕ} (chat : Poly) (v : Fin n → Poly) : Fin n → Poly :=
  fun i => invnttFrominvmont p (polyPointwiseInvmontgomery p chat (v i))

/-- `crypto_sign_keypair_internal`: the public and the secret key. -/
def cryptoSignKeypairInternal (x : Xof) (p : ParamSet) (coins : Bytes) : Option (Bytes × Bytes) := do
  let buf := x.hash 96 coins
  let rho := (buf.drop 32).take 32
  let mat ← expandMat x p rho
  let s1 : Fin p.l → Poly ← collect fun i => polyUniformEta1 x p (buf.take 32) i
  let s2 : Fin p.k → Poly ← collect fun i => polyUniformEta2 x p (buf.take 32) (p.l + i)
  let s1hat := polyvecNtt p s1
  let t := polyvecAdd (matVec p mat s1hat) s2
  let t := polyvecFreeze4q p t
  let (t1, t0) := polyveckPower2round p t
  let pk := packPk p rho t1
  some (pk, packSk p (buf.drop 32 ++ x.hash 48 pk) s1 s2 t0)

/-- What a signer holds before its loop. -/
structure Signer where
  mat : Fin p.k → Fin p.l → Poly
  s1 : Fin p.l → Poly
  s2 : Fin p.k → Poly
  t0 : Fin p.k → Poly
  key : Bytes
  mu : Bytes

/-- A round of `crypto_sign_signature_internal` from the label `rej` on: the
signature, or nothing where it goes back to the label. -/
def signRound (x : Xof) (p : ParamSet) (fuel : ℕ) (s : Signer p) (nonce : ℕ) : Option (Option Bytes) := do
  let y : Fin p.l → Poly ← collect fun i => polyUniformGamma1m1 x p (s.key ++ s.mu) (nonce + i)
  let w := polyveckFreeze2q p (matVec p s.mat (polyvecNtt p y))
  let w1 := (polyveckDecompose p w).1
  let c ← challenge x p fuel s.mu w1
  let chat := ntt p c
  let z := polyvecFreeze4q p (polyvecAdd (polyMulVec p chat s.s1) y)
  if polyvecChknorm p z (p.gamma1 - p.beta1) then some none
  else
    let wcs2 := polyvecFreeze4q p (polyveckSub p w (polyMulVec p chat s.s2))
    let (tmp, wcs20) := polyveckDecompose p wcs2
    if polyvecChknorm p (polyveckFreeze2q p wcs20) (p.gamma2 - p.beta2) then some none
    else if tmp ≠ w1 then some none
    else
      let ct0 := polyveckFreeze2q p (polyMulVec p chat s.t0)
      if polyvecChknorm p ct0 p.gamma2 then some none
      else
        let tmp := polyveckFreeze2q p (polyvecAdd wcs2 ct0)
        let (h, n) := polyveckMakeHint p tmp (polyveckNeg p ct0)
        if p.omega < n then some none
        else some (some (packSig p z h c))

/-- The loop of `crypto_sign_signature_internal`. -/
def signLoop (x : Xof) (p : ParamSet) (fuel : ℕ) (s : Signer p) : ℕ → ℕ → Option Bytes
  | 0, _ => none
  | n + 1, nonce =>
    match signRound x p fuel s nonce with
    | none => none
    | some (some sig) => some sig
    | some none => signLoop x p fuel s n (nonce + p.l)

/-- `crypto_sign_signature_internal`. -/
def cryptoSignSignatureInternal (x : Xof) (p : ParamSet) (fuel : ℕ) (m sk : Bytes) : Option Bytes := do
  let ⟨buf, s1, s2, t0⟩ := unpackSk p sk
  let mat ← expandMat x p (buf.take 32)
  signLoop x p fuel
    { mat := mat
      s1 := polyvecNtt p s1
      s2 := polyvecNtt p s2
      t0 := polyvecNtt p t0
      key := (buf.drop 32).take 32
      mu := x.hash 48 (buf.drop 64 ++ m) } fuel 0

/-- `m_extended`: the message behind its context. -/
def mExtended (m ctx : Bytes) : Bytes := [0, UInt8.ofNat ctx.length] ++ ctx ++ m

/-- `crypto_sign_signature`: the return value where there is no signature. -/
def cryptoSignSignature (x : Xof) (p : ParamSet) (fuel : ℕ) (m ctx sk : Bytes) :
    Option (Except ℤ Bytes) :=
  if 255 < ctx.length then some (.error (-1))
  else (cryptoSignSignatureInternal x p fuel (mExtended m ctx) sk).map .ok

/-- The vector `tmp1` of `crypto_sign_verify_internal` that the hints are used on. -/
def verifyTmp1 (mat : Fin p.k → Fin p.l → Poly) (z : Fin p.l → Poly) (c : Poly)
    (t1 : Fin p.k → Poly) : Fin p.k → Poly :=
  let zhat := polyvecNtt p z
  let tmp1 := fun i => polyveclPointwiseAccInvmontgomery p (mat i) zhat
  let chat := ntt p c
  let t1 := polyvecNtt p (polyveckShiftl t1 p.d)
  let tmp2 := fun i => polyPointwiseInvmontgomery p chat (t1 i)
  let tmp1 := polyveckInvnttMontgomery p (polyveckSub p tmp1 tmp2)
  polyveckFreeze2q p tmp1

/-- `crypto_sign_verify_internal`. -/
def cryptoSignVerifyInternal (x : Xof) (p : ParamSet) (fuel : ℕ) (sig m pk : Bytes) : Option ℤ :=
  if sig.length < p.sigSize then some (-1)
  else
    let (rho, t1) := unpackPk p pk
    match unpackSig p sig with
    | none => some (-1)
    | some ⟨z, h, c⟩ =>
      if polyvecChknorm p z (p.gamma1 - p.beta1) then some (-1)
      else do
        let mu := x.hash 48 (x.hash 48 pk ++ m)
        let mat ← expandMat x p rho
        let w1 := polyveckUseHint p (verifyTmp1 p mat z c t1) h
        let cp ← challenge x p fuel mu w1
        if c ≠ cp then some (-1) else some 0

/-- `crypto_sign_verify`. -/
def cryptoSignVerify (x : Xof) (p : ParamSet) (fuel : ℕ) (sig m ctx pk : Bytes) : Option ℤ :=
  if 255 < ctx.length then some (-1)
  else cryptoSignVerifyInternal x p fuel sig (mExtended m ctx) pk

/-! ## residues -/

section

variable {p} {c₁ : ℕ} {a c : Poly} {n : ℕ}

theorem polyRep_residues (h : ∀ i, a i < c₁ * p.q) : PolyRep p c₁ a (residues p a) :=
  fun i => ⟨h i, rfl⟩

theorem PolyRep.residues_eq {u : Fin 256 → ZMod p.q} (h : PolyRep p c₁ a u) : residues p a = u :=
  funext fun i => (h i).2

/-- The transforms undo each other when the factor of a product is taken out. -/
theorem nttRes_invnttRes_smul (v : Fin 256 → ZMod p.q) : nttRes p (invnttRes p (rho p • v)) = v := by
  rw [nttRes_invnttRes, smul_smul, two_pow_mul_rho, one_smul]

/-- The residues of a row of the matrix times a vector. -/
def rowRes (p : ParamSet) (row v : Fin p.l → Poly) : Fin 256 → ZMod p.q :=
  rowHat (nttRes p) (invnttRes p) (rho p) (fun j => residues p (row j)) fun j => residues p (v j)

/-- The residues of the challenge times a polynomial. -/
def mulRes (p : ParamSet) (c a : Poly) : Fin 256 → ZMod p.q :=
  mulHat (nttRes p) (invnttRes p) (rho p) (nttRes p (residues p c)) (residues p a)

variable {mat : Fin p.k → Fin p.l → Poly} {v z : Fin p.l → Poly} {t1 : Fin p.k → Poly}

theorem matVec_rep (hmat : ∀ i j n, mat i j n < p.q) (hv : ∀ j n, v j n < 2 * p.q) (i : Fin p.k) :
    PolyRep p 2 (matVec p mat (polyvecNtt p v) i) (rowRes p (mat i) v) := by
  have hrow : ∀ j, PolyRep p 18 (mat i j) (residues p (mat i j)) := fun j =>
    polyRep_residues fun n => by have := hmat i j n; omega
  have hhat : ∀ j, PolyRep p 18 (polyvecNtt p v j) (nttRes p (residues p (v j))) := fun j =>
    ntt_rep (polyRep_residues (hv j))
  exact invntt_rep ((polyveclPointwiseAcc_rep hrow hhat).mono (by omega))

theorem polyMulVec_rep {v : Fin n → Poly} (hc : ∀ i, c i < 2 * p.q) (hv : ∀ j i, v j i < 2 * p.q)
    (j : Fin n) : PolyRep p 2 (polyMulVec p (ntt p c) (polyvecNtt p v) j) (mulRes p c (v j)) := by
  have hprod := polyPointwise_rep (ntt_rep (polyRep_residues hc)) (ntt_rep (polyRep_residues (hv j)))
  exact invntt_rep (hprod.mono (by omega))

/-- **Multiplication** is exact modulo `x ^ 256 + 1`, where an entry of the matrix is
a transform. -/
theorem matVec_polyMulVec_exact (hmat : ∀ i j n, mat i j n < p.q)
    (hv : ∀ j n, v j n < 2 * p.q) (hc : ∀ i, c i < 2 * p.q) :
    (∀ i, PolyRep p 2 (matVec p mat (polyvecNtt p v) i)
        (∑ j, Ntt.negaMul (invnttRes p (rho p • residues p (mat i j))) (residues p (v j)))) ∧
      ∀ j, PolyRep p 2 (polyMulVec p (ntt p c) (polyvecNtt p v) j)
        (Ntt.negaMul (residues p c) (residues p (v j))) := by
  have : NeZero p.q := ⟨by cases p <;> decide⟩
  constructor
  · intro i
    rw [← rowHat_eq nttRes_invnttRes_smul (.refl _) nttRes_negaMul]
    exact matVec_rep hmat hv i
  · intro j
    rw [← mulHat_eq nttRes_invnttRes_smul (.refl _) nttRes_negaMul]
    exact polyMulVec_rep hc hv j

theorem matVec_polyMulVec_exact_ones : PolyRep .params1 2
    (polyMulVec .params1 (ntt .params1 fun _ => 1) (polyvecNtt .params1 fun (_ : Fin ParamSet.params1.l) _ => 1)
      ⟨0, by decide⟩)
    (Ntt.negaMul (residues .params1 fun _ => 1) (residues .params1 fun _ => 1)) :=
  (@matVec_polyMulVec_exact .params1 _ (fun _ _ _ => 0) _ (fun _ _ _ => by decide) (fun _ _ => by decide)
    fun _ => by decide).2 _

theorem polyShiftl_lt {t1 : Poly} (h : ∀ i, t1 i < 256) (i : Fin 256) :
    polyShiftl t1 p.d i = t1 i * 2 ^ p.d ∧ polyShiftl t1 p.d i < 2 * p.q := by
  have hi := h i
  rw [polyShiftl, Nat.shiftLeft_eq]
  cases p <;> simp only [ParamSet.d, ParamSet.q] <;> omega

theorem verifyTmp1_rep (hmat : ∀ i j n, mat i j n < p.q) (hz : ∀ j n, z j n < 2 * p.q) (hc : ∀ i, c i < 2 * p.q)
    (ht1 : ∀ i n, t1 i n < 256) (i : Fin p.k) :
    PolyRep p 1 (verifyTmp1 p mat z c t1 i)
      (invnttRes p (rho p • ∑ j, residues p (mat i j) * nttRes p (residues p (z j)) -
        rho p • (nttRes p (residues p c) * nttRes p (residues p (polyShiftl (t1 i) p.d))))) := by
  have hrow : ∀ j, PolyRep p 18 (mat i j) (residues p (mat i j)) := fun j =>
    polyRep_residues fun n => by have := hmat i j n; omega
  have hzhat : ∀ j, PolyRep p 18 (polyvecNtt p z j) (nttRes p (residues p (z j))) := fun j =>
    ntt_rep (polyRep_residues (hz j))
  have ht1hat := ntt_rep (polyRep_residues fun n => (polyShiftl_lt (p := p) (ht1 i) n).2)
  have hprod := polyPointwise_rep (ntt_rep (polyRep_residues hc)) ht1hat
  exact polyFreeze2q_rep (invntt_rep (polySub_rep (polyveclPointwiseAcc_rep hrow hzhat) hprod))

end

/-! ## honest signatures -/

section

variable {x : Xof} {p} {fuel : ℕ} {coins m ctx pk sk sig : Bytes}

/-- A key pair: the secrets are small, and the public vector with the low parts
is the matrix times the first secret plus the second. -/
structure HonestKey (x : Xof) (p : ParamSet) (rho key : Bytes) (mat : Fin p.k → Fin p.l → Poly)
    (s1 : Fin p.l → Poly) (s2 t1 t0 : Fin p.k → Poly) : Prop where
  rho_length : rho.length = 32
  key_length : key.length = 32
  mat_eq : expandMat x p rho = some mat
  s1_range : ∀ j n, p.q ≤ s1 j n + p.eta1 ∧ s1 j n ≤ p.q + p.eta1
  s2_range : ∀ i n, p.q ≤ s2 i n + p.eta2 ∧ s2 i n ≤ p.q + p.eta2
  t1_lt : ∀ i n, t1 i n < 256
  t0_range : ∀ i n, p.q < t0 i n + 2 ^ (p.d - 1) ∧ t0 i n ≤ p.q + 2 ^ (p.d - 1)
  t_eq : ∀ i, residues p (polyShiftl (t1 i) p.d) + residues p (t0 i) =
    rowRes p (mat i) s1 + residues p (s2 i)

variable {rho key : Bytes} {mat : Fin p.k → Fin p.l → Poly} {s1 y z : Fin p.l → Poly}
  {s2 t1 t0 wcs2 ct0 : Fin p.k → Poly} {c : Poly}

theorem expandMat_lt (h : expandMat x p rho = some mat) (i : Fin p.k) (j : Fin p.l) (n : Fin 256) :
    mat i j n < p.q :=
  expandEntry_lt (collect_eq_some.mp (collect_eq_some.mp h i) j) n

theorem eta_lt (p : ParamSet) : p.eta1 < p.q ∧ p.eta2 < p.q ∧ 2 ^ (p.d - 1) < p.q := by
  cases p <;> decide

theorem power2round_residues {t : Poly} (ht : ∀ n, t n < p.q) :
    residues p (polyShiftl (fun n => (power2round p (t n)).1) p.d) +
      residues p (fun n => (power2round p (t n)).2) = residues p t := by
  funext n
  obtain ⟨-, hsum, -, -⟩ := power2round_spec (ht n)
  have hlt : ∀ n, (power2round p (t n)).1 < 256 := fun n => (power2round_spec (ht n)).1
  have hshift := (polyShiftl_lt (p := p) hlt n).1
  have hcast : ((t n : ℤ) : ZMod p.q) =
      (((power2round p (t n)).1 * 2 ^ p.d + ((power2round p (t n)).2 - p.q) : ℤ) : ZMod p.q) := by
    rw [← hsum]
  simp only [Pi.add_apply, residues, hshift]
  push_cast at hcast ⊢
  rw [hcast, ZMod.natCast_self, sub_zero]

theorem keypair_inv (h : cryptoSignKeypairInternal x p coins = some (pk, sk)) :
    ∃ rho key mat s1 s2 t1 t0, HonestKey x p rho key mat s1 s2 t1 t0 ∧ pk = packPk p rho t1 ∧
      sk = packSk p (rho ++ key ++ x.hash 48 pk) s1 s2 t0 := by
  simp only [cryptoSignKeypairInternal, Option.bind_eq_bind, Option.bind_eq_some_iff] at h
  obtain ⟨mat, hmat, s1, hs1, s2, hs2, hout⟩ := h
  generalize hteq : polyvecFreeze4q p (polyvecAdd (matVec p mat (polyvecNtt p s1)) s2) = t at hout
  obtain ⟨rfl, rfl⟩ := Prod.mk.inj (Option.some.inj hout)
  have heta := eta_lt p
  have hlen : (x.hash 96 coins).length = 96 := by simp [Xof.hash]
  have hs1r := fun j => polyUniformEta1_range (collect_eq_some.mp hs1 j)
  have hs2r := fun i => polyUniformEta2_range (collect_eq_some.mp hs2 i)
  have hs1lt : ∀ j n, s1 j n < 2 * p.q := fun j n => by have := hs1r j n; omega
  have hs2lt : ∀ i n, s2 i n < 2 * p.q := fun i n => by have := hs2r i n; omega
  have ht : ∀ i, PolyRep p 1 (t i) (rowRes p (mat i) s1 + residues p (s2 i)) := by
    intro i
    rw [← hteq]
    have hsum := polyAdd_rep (matVec_rep (expandMat_lt hmat) hs1lt i)
      (polyRep_residues (hs2lt i)) (by omega)
    exact polyFreeze4q_rep hsum
  have htlt : ∀ i n, t i n < p.q := fun i n => by have := (ht i n).1; omega
  have hpow : (2 : ℤ) ^ (p.d - 1) = ((2 ^ (p.d - 1) : ℕ) : ℤ) := by norm_cast
  refine ⟨_, (x.hash 96 coins).drop 64, mat, s1, s2, (polyveckPower2round p t).1,
    (polyveckPower2round p t).2, ⟨?_, ?_, hmat, hs1r, hs2r, ?_, ?_, ?_⟩, rfl, ?_⟩
  · simp [hlen]
  · simp [hlen]
  · exact fun i n => (power2round_spec (htlt i n)).1
  · intro i n
    obtain ⟨-, -, hlo, hhi⟩ := power2round_spec (htlt i n)
    rw [hpow] at hlo hhi
    simp only [polyveckPower2round]
    omega
  · intro i
    exact (power2round_residues (htlt i)).trans (ht i).residues_eq
  · have hbuf : (x.hash 96 coins).drop 64 = ((x.hash 96 coins).drop 32).drop 32 := by
      rw [List.drop_drop]
    rw [hbuf, List.take_append_drop]

/-- What a round that gives a signature has computed and tested. -/
theorem signRound_inv {s : Signer p} {nonce : ℕ} (h : signRound x p fuel s nonce = some (some sig)) :
    ∃ y c w z wcs2 ct0 hints, (∀ j n, y j n < 2 * p.q) ∧
      w = polyveckFreeze2q p (matVec p s.mat (polyvecNtt p y)) ∧
      challenge x p fuel s.mu (polyveckDecompose p w).1 = some c ∧
      z = polyvecFreeze4q p (polyvecAdd (polyMulVec p (ntt p c) s.s1) y) ∧
      polyvecChknorm p z (p.gamma1 - p.beta1) = false ∧
      wcs2 = polyvecFreeze4q p (polyveckSub p w (polyMulVec p (ntt p c) s.s2)) ∧
      (polyveckDecompose p wcs2).1 = (polyveckDecompose p w).1 ∧
      ct0 = polyveckFreeze2q p (polyMulVec p (ntt p c) s.t0) ∧
      polyvecChknorm p ct0 p.gamma2 = false ∧
      hints = polyveckMakeHint p (polyveckFreeze2q p (polyvecAdd wcs2 ct0)) (polyveckNeg p ct0) ∧
      hints.2 ≤ p.omega ∧ sig = packSig p z hints.1 c := by
  simp only [signRound, Option.bind_eq_bind, Option.bind_eq_some_iff] at h
  obtain ⟨y, hy, c, hc, h⟩ := h
  have hylt : ∀ j n, y j n < 2 * p.q := fun j n => polyUniformGamma1m1_lt (collect_eq_some.mp hy j) n
  split at h
  · simp at h
  · next hz =>
    split at h
    · simp at h
    · split at h
      · simp at h
      · next htmp =>
        split at h
        · simp at h
        · next hct0 =>
          split at h
          · simp at h
          · next hn =>
            exact ⟨y, c, _, _, _, _, _, hylt, rfl, hc, rfl, Bool.not_eq_true _ ▸ hz, rfl,
              not_not.mp htmp, rfl, Bool.not_eq_true _ ▸ hct0, rfl, Nat.not_lt.mp hn,
              (Option.some.inj (Option.some.inj h)).symm⟩

theorem signLoop_inv {s : Signer p} {n nonce : ℕ} (h : signLoop x p fuel s n nonce = some sig) :
    ∃ nonce, signRound x p fuel s nonce = some (some sig) := by
  induction n generalizing nonce with
  | zero => contradiction
  | succ n ih =>
    unfold signLoop at h
    split at h
    · contradiction
    · next hround => exact ⟨nonce, by rw [hround, Option.some.inj h]⟩
    · exact ih h

theorem HonestKey.s1_lt (hk : HonestKey x p rho key mat s1 s2 t1 t0) (j : Fin p.l) (n : Fin 256) :
    s1 j n < 2 * p.q := by
  have hr := hk.s1_range j n
  have heta := eta_lt p
  omega

theorem HonestKey.s2_lt (hk : HonestKey x p rho key mat s1 s2 t1 t0) (i : Fin p.k) (n : Fin 256) :
    s2 i n < 2 * p.q := by
  have hr := hk.s2_range i n
  have heta := eta_lt p
  omega

theorem HonestKey.t0_lt (hk : HonestKey x p rho key mat s1 s2 t1 t0) (i : Fin p.k) (n : Fin 256) :
    t0 i n < 2 * p.q := by
  have hr := hk.t0_range i n
  have heta := eta_lt p
  omega

theorem HonestKey.z_rep (hk : HonestKey x p rho key mat s1 s2 t1 t0) (hc : ∀ n, c n < 2 * p.q)
    (hy : ∀ j n, y j n < 2 * p.q)
    (hz : z = polyvecFreeze4q p (polyvecAdd (polyMulVec p (ntt p c) (polyvecNtt p s1)) y)) (j : Fin p.l) :
    PolyRep p 1 (z j) (mulRes p c (s1 j) + residues p (y j)) := by
  rw [hz]
  exact polyFreeze4q_rep (polyAdd_rep (polyMulVec_rep hc hk.s1_lt j) (polyRep_residues (hy j)) (by omega))

/-- The verifier recomputes what the signer made the hints for. -/
theorem HonestKey.verifyTmp1_eq (hk : HonestKey x p rho key mat s1 s2 t1 t0)
    (hc : ∀ n, c n < 2 * p.q) (hy : ∀ j n, y j n < 2 * p.q) {w : Fin p.k → Poly}
    (hw : w = polyveckFreeze2q p (matVec p mat (polyvecNtt p y)))
    (hz : z = polyvecFreeze4q p (polyvecAdd (polyMulVec p (ntt p c) (polyvecNtt p s1)) y))
    (hwcs2 : wcs2 = polyvecFreeze4q p (polyveckSub p w (polyMulVec p (ntt p c) (polyvecNtt p s2))))
    (hct0 : ct0 = polyveckFreeze2q p (polyMulVec p (ntt p c) (polyvecNtt p t0))) (i : Fin p.k) :
    (∀ n, wcs2 i n < p.q) ∧ (∀ n, ct0 i n < p.q) ∧
      verifyTmp1 p mat z c t1 i = polyveckFreeze2q p (polyvecAdd wcs2 ct0) i := by
  have hmat := expandMat_lt hk.mat_eq
  have hwrep : PolyRep p 1 (w i) (rowRes p (mat i) y) := by
    rw [hw]
    exact polyFreeze2q_rep (matVec_rep hmat hy i)
  have hzrep := hk.z_rep hc hy hz
  have hwcs2rep : PolyRep p 1 (wcs2 i) (rowRes p (mat i) y - mulRes p c (s2 i)) := by
    rw [hwcs2]
    exact polyFreeze4q_rep (polySub_rep (hwrep.mono (by omega)) (polyMulVec_rep hc hk.s2_lt i))
  have hct0rep : PolyRep p 1 (ct0 i) (mulRes p c (t0 i)) := by
    rw [hct0]
    exact polyFreeze2q_rep (polyMulVec_rep hc hk.t0_lt i)
  have hzlt : ∀ j n, z j n < 2 * p.q := fun j n => by have := (hzrep j n).1; omega
  have hvalue := verifier_value nttRes_invnttRes_smul (fun j => (hzrep j).residues_eq) (hk.t_eq i)
  have htmp1 := verifyTmp1_rep hmat hzlt hc hk.t1_lt i
  rw [hvalue] at htmp1
  have htmp : PolyRep p 1 (polyveckFreeze2q p (polyvecAdd wcs2 ct0) i)
      (rowRes p (mat i) y - mulRes p c (s2 i) + mulRes p c (t0 i)) :=
    polyFreeze2q_rep (polyAdd_rep hwcs2rep hct0rep (by omega))
  exact ⟨fun n => by have := (hwcs2rep n).1; omega, fun n => by have := (hct0rep n).1; omega,
    htmp1.unique htmp⟩

/-- With the hints, the verifier has the high parts that the signer had. -/
theorem useHint_recovers (hwcs2 : ∀ i n, wcs2 i n < p.q) (hct0 : ∀ i n, ct0 i n < p.q)
    (hnorm : polyvecChknorm p ct0 p.gamma2 = false) :
    polyveckUseHint p (polyveckFreeze2q p (polyvecAdd wcs2 ct0))
        (polyveckMakeHint p (polyveckFreeze2q p (polyvecAdd wcs2 ct0)) (polyveckNeg p ct0)).1 =
      (polyveckDecompose p wcs2).1 := by
  funext i n
  have hq := q_lt p
  have hw := hwcs2 i n
  have hc := hct0 i n
  have hsum : polyveckFreeze2q p (polyvecAdd wcs2 ct0) i n = (wcs2 i n + ct0 i n) % p.q := by
    simp only [polyveckFreeze2q, polyFreeze2q, polyvecAdd, polyAdd, add32]
    rw [Nat.mod_eq_of_lt (by omega), freeze4q_eq (by omega)]
  have hneg : polyveckNeg p ct0 i n = 2 * p.q - ct0 i n := sub32_of_le (by omega) (by omega)
  have hslt : polyveckFreeze2q p (polyvecAdd wcs2 ct0) i n < p.q := by
    rw [hsum]
    exact Nat.mod_lt _ (by omega)
  simp only [polyveckUseHint, polyveckMakeHint, polyveckDecompose]
  rw [hneg]
  exact useHint_makeHint hslt hw hc hsum (polyvecChknorm_eq_false.mp hnorm i n)

/-- What a signer that holds an honest key signs is accepted. -/
theorem signInternal_verifies (hk : HonestKey x p rho key mat s1 s2 t1 t0)
    (hpk : pk = packPk p rho t1) (hsk : sk = packSk p (rho ++ key ++ x.hash 48 pk) s1 s2 t0)
    (hsig : cryptoSignSignatureInternal x p fuel m sk = some sig) :
    cryptoSignVerifyInternal x p fuel sig m pk = some 0 := by
  have hhash : (x.hash 48 pk).length = 48 := by simp [Xof.hash]
  have hrk : (rho ++ key).length = 64 := by rw [List.length_append, hk.rho_length, hk.key_length]
  have hbuf : (rho ++ key ++ x.hash 48 pk).length = 112 := by rw [List.length_append, hrk, hhash]
  have hrho : (rho ++ key ++ x.hash 48 pk).take 32 = rho := by
    rw [List.append_assoc, List.take_left' hk.rho_length]
  have hmu : (rho ++ key ++ x.hash 48 pk).drop 64 = x.hash 48 pk := List.drop_left' hrk
  simp only [cryptoSignSignatureInternal, hsk, unpackSk_pack hbuf hk.s1_range hk.s2_range hk.t0_range,
    hrho, hmu, hk.mat_eq, Option.bind_eq_bind, Option.bind_some] at hsig
  obtain ⟨nonce, hround⟩ := signLoop_inv hsig
  obtain ⟨y, c, w, z, wcs2, ct0, hints, hy, hw, hc, hz, hznorm, hwcs2, hhigh, hct0, hnorm, hhints, hω, rfl⟩ :=
    signRound_inv hround
  have hcval := challenge_spec hc
  have hq : 1 < p.q := by cases p <;> decide
  have hclt : ∀ n, c n < 2 * p.q := fun n => by have := hcval.1 n; omega
  have hvalue := hk.verifyTmp1_eq hclt hy hw hz hwcs2 hct0
  have hweight : hintWeight hints.1 ≤ p.omega := by
    rw [hhints, polyveckMakeHint_count, ← hhints]
    exact hω
  have hzq : ∀ j n, z j n < p.q := fun j n => by have := (hk.z_rep hclt hy hz j n).1; omega
  have hzpack : ∀ j n, z j n < p.q ∧ zMap p (z j n) < 2 ^ 18 := fun j n =>
    ⟨hzq j n, zMap_lt (hzq j n)
      ((polyvecChknorm_eq_false.mp hznorm j n).trans_le (Nat.sub_le _ _))⟩
  have h01 : ∀ i n, hints.1 i n = 0 ∨ hints.1 i n = 1 := by
    rw [hhints]
    exact fun i n => makeHint_zero_or_one p _ _
  have hunpack := unpackSig_pack hzpack h01 hweight hcval.1 (by omega) []
  rw [List.append_nil] at hunpack
  have hw1 : polyveckUseHint p (verifyTmp1 p mat z c t1) hints.1 = (polyveckDecompose p w).1 := by
    rw [funext fun i => (hvalue i).2.2, hhints, ← hhigh]
    exact useHint_recovers (fun i => (hvalue i).1) (fun i => (hvalue i).2.1) hnorm
  simp only [cryptoSignVerifyInternal, length_packSig hweight, Nat.lt_irrefl, if_false, hpk,
    unpackPk_pack hk.rho_length hk.t1_lt, hunpack, hznorm,
    Bool.false_eq_true, hk.mat_eq, Option.bind_eq_bind, Option.bind_some, hw1]
  rw [← hpk, hc]
  simp

/-- **Signatures verify**: with the bound within which a signature was made, for
the key pair of any seed. -/
theorem sign_verifies (hkey : cryptoSignKeypairInternal x p coins = some (pk, sk))
    (hsig : cryptoSignSignature x p fuel m ctx sk = some (.ok sig)) :
    cryptoSignVerify x p fuel sig m ctx pk = some 0 := by
  obtain ⟨rho, key, mat, s1, s2, t1, t0, hk, hpk, hsk⟩ := keypair_inv hkey
  unfold cryptoSignSignature at hsig
  split at hsig
  · simp at hsig
  · next hctx =>
    obtain ⟨sig', hint, hsig'⟩ := Option.map_eq_some_iff.mp hsig
    obtain rfl : sig' = sig := by simpa using hsig'
    rw [cryptoSignVerify, if_neg hctx]
    exact signInternal_verifies hk hpk hsk hint

end

/-! ## a run -/

section

variable {p} {c : Poly}

theorem polyRep_zero : PolyRep p 1 (fun _ => 0) 0 := by
  have hq : 0 < 1 * p.q := by cases p <;> decide
  exact fun i => ⟨hq, by simp⟩

theorem rowRes_zero {row v : Fin p.l → Poly} (h : ∀ j, residues p (row j) = 0) : rowRes p row v = 0 := by
  simp [rowRes, rowHat, h]

theorem mulRes_zero {a : Poly} (h : residues p a = 0) : mulRes p c a = 0 := by
  simp [mulRes, mulHat, h]

theorem chknorm_const {n v bound : ℕ} (hv : v < p.q) (h : v < bound) :
    polyvecChknorm p (fun (_ : Fin n) (_ : Fin 256) => v) bound = false :=
  polyvecChknorm_eq_false.mpr fun _ _ => (centredAbs_lt_iff hv).mpr (.inl h)

variable {x : Xof} {fuel : ℕ} {mat : Fin p.k → Fin p.l → Poly} {s1 y : Fin p.l → Poly}
  {s2 t0 : Fin p.k → Poly}

/-- A round of a signer whose matrix and secrets are zero. -/
theorem signRound_zero {nonce v : ℕ} {key mu : Bytes} (hmat : ∀ i j n, mat i j n = 0)
    (hs1q : ∀ j n, s1 j n = p.q) (hs2q : ∀ i n, s2 i n = p.q) (ht0q : ∀ i n, t0 i n = p.q)
    (hy : ∀ j : Fin p.l, polyUniformGamma1m1 x p (key ++ mu) (nonce + j) = some (y j))
    (hyv : ∀ j n, y j n = p.q + v) (hv : v < p.gamma1 - p.beta1)
    (hc : challenge x p fuel mu (fun _ _ => 0) = some c) :
    signRound x p fuel ⟨mat, polyvecNtt p s1, polyvecNtt p s2, polyvecNtt p t0, key, mu⟩ nonce =
      some (some (packSig p (fun _ _ => v) (fun _ _ => 0) c)) := by
  have hq : 1 < p.q := by cases p <;> decide
  have hgq : p.gamma1 < p.q := by cases p <;> decide
  have hzero : ∀ a : Poly, (∀ n, a n = p.q) → residues p a = 0 := fun a ha => by
    funext n
    simp [residues, ha]
  have hclt : ∀ n, c n < 2 * p.q := fun n => by have := (challenge_spec hc).1 n; omega
  have hs1lt : ∀ j n, s1 j n < 2 * p.q := fun j n => by rw [hs1q]; omega
  have hs2lt : ∀ i n, s2 i n < 2 * p.q := fun i n => by rw [hs2q]; omega
  have ht0lt : ∀ i n, t0 i n < 2 * p.q := fun i n => by rw [ht0q]; omega
  have hylt : ∀ j n, y j n < 2 * p.q := fun j n => by rw [hyv]; omega
  have hmatlt : ∀ i j n, mat i j n < p.q := fun i j n => by rw [hmat]; omega
  have hw : polyveckFreeze2q p (matVec p mat (polyvecNtt p y)) = fun _ _ => 0 := by
    funext i
    have hrep := polyFreeze2q_rep (matVec_rep hmatlt hylt i)
    rw [rowRes_zero fun j => funext fun n => by simp [residues, hmat]] at hrep
    exact hrep.unique polyRep_zero
  have hz : polyvecFreeze4q p (polyvecAdd (polyMulVec p (ntt p c) (polyvecNtt p s1)) y) = fun _ _ => v := by
    funext j
    have hrep := polyFreeze4q_rep (polyAdd_rep (polyMulVec_rep hclt hs1lt j) (polyRep_residues (hylt j))
      (by omega))
    rw [mulRes_zero (hzero _ (hs1q j)), zero_add] at hrep
    exact hrep.unique fun n => ⟨by omega, by simp [residues, hyv]⟩
  have hwcs2 : polyvecFreeze4q p (polyveckSub p (fun _ _ => 0) (polyMulVec p (ntt p c) (polyvecNtt p s2))) =
      fun _ _ => 0 := by
    funext i
    have hrep := polyFreeze4q_rep (polySub_rep (polyRep_zero.mono (by omega))
      (polyMulVec_rep hclt hs2lt i))
    rw [mulRes_zero (hzero _ (hs2q i)), sub_zero] at hrep
    exact hrep.unique polyRep_zero
  have hct0 : polyveckFreeze2q p (polyMulVec p (ntt p c) (polyvecNtt p t0)) = fun _ _ => 0 := by
    funext i
    have hrep := polyFreeze2q_rep (polyMulVec_rep hclt ht0lt i)
    rw [mulRes_zero (hzero _ (ht0q i))] at hrep
    exact hrep.unique polyRep_zero
  have hdec : polyveckDecompose p (fun _ _ => 0) = (fun _ _ => 0, fun _ _ => p.q) := by
    have h0 : decompose p 0 = (0, p.q) := by cases p <;> decide
    simp [polyveckDecompose, h0]
  have hlow : polyveckFreeze2q p (fun (_ : Fin p.k) (_ : Fin 256) => p.q) = fun _ _ => 0 := by
    have h0 : freeze4q p p.q = 0 := by cases p <;> decide
    exact funext fun _ => funext fun _ => h0
  have hsum : polyveckFreeze2q p (polyvecAdd (fun (_ : Fin p.k) (_ : Fin 256) => 0) fun _ _ => 0) =
      fun _ _ => 0 := by
    have h0 : freeze4q p (add32 0 0) = 0 := by cases p <;> decide
    exact funext fun _ => funext fun _ => h0
  have hhint : polyveckMakeHint p (fun _ _ => 0) (polyveckNeg p fun _ _ => 0) = (fun _ _ => 0, 0) := by
    have h0 : makeHint p 0 (sub32 (2 * p.q) 0) = 0 := by cases p <;> decide
    simp only [polyveckMakeHint, polyveckNeg, polyNeg, h0, List.sum_map_zero]
  have hb2 : 0 < p.gamma2 - p.beta2 ∧ 0 < p.gamma2 := by cases p <;> decide
  simp only [signRound, collect_eq_some.mpr hy, Option.bind_eq_bind, Option.bind_some, hw, hdec, hc, hz,
    chknorm_const (show v < p.q by omega) hv, hwcs2, hlow, chknorm_const (show 0 < p.q by omega) hb2.1,
    hct0, chknorm_const (show 0 < p.q by omega) hb2.2, hsum, hhint]
  simp

theorem signInternal_of_round {m sk buf sig : Bytes} (hsk : unpackSk p sk = ⟨buf, s1, s2, t0⟩)
    (hmat : expandMat x p (buf.take 32) = some mat)
    (hround : signRound x p (fuel + 1) ⟨mat, polyvecNtt p s1, polyvecNtt p s2, polyvecNtt p t0,
      (buf.drop 32).take 32, x.hash 48 (buf.drop 64 ++ m)⟩ 0 = some (some sig)) :
    cryptoSignSignatureInternal x p (fuel + 1) m sk = some sig := by
  simp only [cryptoSignSignatureInternal, hsk, hmat, Option.bind_eq_bind, Option.bind_some, signLoop, hround]

theorem keypair_of_samples {coins : Bytes} {t : Fin p.k → Poly}
    (hmat : expandMat x p (((x.hash 96 coins).drop 32).take 32) = some mat)
    (hs1 : ∀ j : Fin p.l, polyUniformEta1 x p ((x.hash 96 coins).take 32) j = some (s1 j))
    (hs2 : ∀ i : Fin p.k, polyUniformEta2 x p ((x.hash 96 coins).take 32) (p.l + i) = some (s2 i))
    (ht : polyvecFreeze4q p (polyvecAdd (matVec p mat (polyvecNtt p s1)) s2) = t) :
    ∃ pk, cryptoSignKeypairInternal x p coins = some (pk, packSk p ((x.hash 96 coins).drop 32 ++ x.hash 48 pk)
      s1 s2 (polyveckPower2round p t).2) := by
  refine ⟨packPk p (((x.hash 96 coins).drop 32).take 32) (polyveckPower2round p t).1, ?_⟩
  simp only [cryptoSignKeypairInternal, hmat, collect_eq_some.mpr hs1, collect_eq_some.mpr hs2, ht,
    Option.bind_eq_bind, Option.bind_some]

/-- The public vector of a zero matrix and zero secrets. -/
theorem t_zero (hmat : ∀ i j n, mat i j n = 0) (hs1 : ∀ j n, s1 j n = p.q)
    (hs2 : ∀ i n, s2 i n = p.q) :
    polyvecFreeze4q p (polyvecAdd (matVec p mat (polyvecNtt p s1)) s2) = fun _ _ => 0 := by
  have hq : 1 < p.q := by cases p <;> decide
  have hmatlt : ∀ i j n, mat i j n < p.q := fun i j n => by rw [hmat]; omega
  have hs1lt : ∀ j n, s1 j n < 2 * p.q := fun j n => by rw [hs1]; omega
  have hs2lt : ∀ i n, s2 i n < 2 * p.q := fun i n => by rw [hs2]; omega
  funext i
  have hrep := polyFreeze4q_rep (polyAdd_rep (matVec_rep hmatlt hs1lt i) (polyRep_residues (hs2lt i)) (by omega))
  have hs2z : residues p (s2 i) = 0 := funext fun n => by simp [residues, hs2]
  rw [rowRes_zero fun j => funext fun n => by simp [residues, hmat], hs2z, add_zero] at hrep
  exact hrep.unique polyRep_zero

end

/-- What `challenge_spec` says of a challenge. -/
def IsChallenge (c : Poly) : Prop :=
  (∀ j, c j = 0 ∨ c j = 1 ∨ c j = p.q - 1) ∧ rank c 256 = 60

open ParamSet (params3)

/-- A hash that gives a zero matrix and secrets that are zero modulo `PARAM_Q`
for the third parameter set. -/
def fixedXof : Xof := .sm3 fun n _ _ => if n = 1008 then 0 else 0x55

theorem fixed_expandMat (rho : Bytes) :
    ∃ mat, expandMat fixedXof .params3 rho = some mat ∧ ∀ i j n, mat i j n = 0 := by
  have hconst : (matSampler .params3).Constant (fun _ => 0) 0 0 := .of_byte (by decide) (by decide)
  obtain ⟨r, hr, hpos, hlen, hval⟩ := hconst.rounds_fill 224 225 1008 1008 0 [] (by simp) (by decide) (by decide)
    (by decide)
  have hpos' : r.1 ≤ 675 := hpos
  obtain ⟨r', hr', -, hr256⟩ := hconst.rounds_fill 30 256 1008 1008 r.1 r.2 hval (by omega)
    (show r.1 + 3 * 31 ≤ 1008 by omega) (by decide)
  have hbuf : ∀ inbuf, fixedXof.squeeze128 inbuf 0 0 1008 = fun _ => 0 := fun _ => rfl
  have hentry : ∀ i j, expandEntry fixedXof .params3 rho i j = some (ofSamples r'.2) := by
    intro i j
    simp only [expandEntry, hbuf, hr, Option.bind_eq_bind, Option.bind_some]
    rw [if_neg (by decide), if_neg (by omega)]
    simp only [hr', Option.bind_some]
  exact ⟨fun _ _ => ofSamples r'.2, collect_eq_some.mpr fun i => collect_eq_some.mpr fun j => hentry i j,
    fun _ _ => ofSamples_spec hr256⟩

theorem fixed_eta1 (seed : Bytes) (nonce : ℕ) :
    ∃ a, polyUniformEta1 fixedXof .params3 seed nonce = some a ∧ ∀ i, a i = params3.q := by
  have hconst : (eta1Sampler .params3).Constant (fun _ => 0x55) params3.q 3 :=
    .of_byte (by decide) (by decide)
  obtain ⟨r, hr, -, hval⟩ := hconst.twoLoops 62 4 256 272 (by decide) (by decide) (by decide)
  have hbuf : ∀ inbuf, fixedXof.squeeze256 inbuf 0 0 272 = fun _ => 0x55 := fun _ => rfl
  refine ⟨ofSamples r.2, ?_, ofSamples_spec hval⟩
  simp only [polyUniformEta1, hbuf]
  rw [if_pos (by decide), hr]
  rfl

theorem fixed_eta2 (seed : Bytes) (nonce : ℕ) :
    ∃ a, polyUniformEta2 fixedXof .params3 seed nonce = some a ∧ ∀ i, a i = params3.q := by
  have hconst : (eta2Sampler .params3).Constant (fun _ => 0x55) params3.q 1 :=
    .of_byte (by decide) (by decide)
  obtain ⟨r, hr, hpos, hval⟩ := hconst.twoLoops 110 2 223 272 (by decide) (by decide) (by decide)
  have hpos' : r.1 ≤ 114 := hpos
  obtain ⟨r', hr', -, hval'⟩ := hconst.twoLoops 15 2 33 (272 - r.1) (by decide) (by decide)
    (show 1 * 16 + 1 * 3 ≤ 272 - r.1 by omega)
  have hbuf : ∀ inbuf, fixedXof.squeeze256 inbuf 0 0 272 = fun _ => 0x55 := fun _ => rfl
  refine ⟨ofSamples (r.2.take 223 ++ r'.2), ?_,
    ofSamples_spec (P := fun y => y = params3.q) ⟨?_, ?_⟩⟩
  · simp only [polyUniformEta2, hbuf, hr, Option.bind_eq_bind, Option.bind_some]
    rw [if_neg (by decide), if_neg (by omega)]
    simp only [hr', Option.bind_some]
  · rw [List.length_append, List.length_take_of_le hval.1]
    omega
  · intro y hy
    rcases List.mem_append.mp hy with hy | hy
    · exact hval.2 y (List.mem_of_mem_take hy)
    · exact hval'.2 y hy

theorem fixed_gamma1m1 (seed : Bytes) (nonce : ℕ) :
    ∃ a, polyUniformGamma1m1 fixedXof .params3 seed nonce = some a ∧
      ∀ i, a i = params3.q + 43690 := by
  have hconst : (gamma1Sampler .params3).Constant (fun _ => 0x55) (params3.q + 43690) 1 :=
    .of_byte (by decide) (by decide)
  obtain ⟨r, hr, -, hval⟩ := hconst.twoLoops 126 2 256 680 (by decide) (by decide) (by decide)
  have hbuf : ∀ inbuf, (fun i => (fixedXof.output 680 inbuf i).toNat) = fun _ => 0x55 := fun _ => rfl
  refine ⟨ofSamples r.2, ?_, ofSamples_spec hval⟩
  simp only [polyUniformGamma1m1, hbuf, hr, Option.bind_eq_bind, Option.bind_some]

theorem fixed_challenge (mu : Bytes) (w1 : Fin params3.k → Poly) :
    ∃ c, challenge fixedXof .params3 1 mu w1 = some c :=
  challenge_returns mu w1 fun _ _ _ => show 0x55 ≤ 196 by decide

theorem fixed_signRound {mat : Fin params3.k → Fin params3.l → Poly}
    {s1 : Fin params3.l → Poly} {s2 t0 : Fin params3.k → Poly} (key mu : Bytes)
    (hmat : ∀ i j n, mat i j n = 0) (hs1 : ∀ j n, s1 j n = params3.q)
    (hs2 : ∀ i n, s2 i n = params3.q) (ht0 : ∀ i n, t0 i n = params3.q) :
    ∃ c, IsChallenge .params3 c ∧ signRound fixedXof .params3 1
        ⟨mat, polyvecNtt .params3 s1, polyvecNtt .params3 s2, polyvecNtt .params3 t0, key, mu⟩ 0 =
      some (some (packSig .params3 (fun _ _ => 43690) (fun _ _ => 0) c)) := by
  choose y hy hyv using fixed_gamma1m1
  obtain ⟨c, hc⟩ := fixed_challenge mu fun _ _ => 0
  have hv : 43690 < params3.gamma1 - params3.beta1 := by decide
  exact ⟨c, challenge_spec hc,
    signRound_zero hmat hs1 hs2 ht0 (fun j => hy _ _) (fun j => hyv _ _) hv hc⟩

/-- The signer of a zero key signs in its first round. -/
theorem fixed_signs (m buf : Bytes) (hbuf : buf.length = 112) {s1 : Fin params3.l → Poly}
    {s2 t0 : Fin params3.k → Poly} (hs1 : ∀ j n, s1 j n = params3.q)
    (hs2 : ∀ i n, s2 i n = params3.q) (ht0 : ∀ i n, t0 i n = params3.q) :
    ∃ c, IsChallenge .params3 c ∧
      cryptoSignSignatureInternal fixedXof .params3 1 m (packSk .params3 buf s1 s2 t0) =
        some (packSig .params3 (fun _ _ => 43690) (fun _ _ => 0) c) := by
  obtain ⟨mat, hmat, hzero⟩ := fixed_expandMat (buf.take 32)
  obtain ⟨c, hc, hround⟩ := fixed_signRound ((buf.drop 32).take 32) (fixedXof.hash 48 (buf.drop 64 ++ m)) hzero
    hs1 hs2 ht0
  have hs1r : ∀ j n, params3.q ≤ s1 j n + params3.eta1 ∧
      s1 j n ≤ params3.q + params3.eta1 := fun j n => by simp [hs1]
  have hs2r : ∀ i n, params3.q ≤ s2 i n + params3.eta2 ∧
      s2 i n ≤ params3.q + params3.eta2 := fun i n => by simp [hs2]
  have ht0r : ∀ i n, params3.q < t0 i n + 2 ^ (params3.d - 1) ∧
      t0 i n ≤ params3.q + 2 ^ (params3.d - 1) := fun i n => by simp [ht0]
  exact ⟨c, hc, signInternal_of_round (unpackSk_pack hbuf hs1r hs2r ht0r) hmat hround⟩

theorem fixed_run (coins m : Bytes) : ∃ pk sk c, IsChallenge .params3 c ∧
    cryptoSignKeypairInternal fixedXof .params3 coins = some (pk, sk) ∧
      cryptoSignSignature fixedXof .params3 1 m [] sk =
        some (.ok (packSig .params3 (fun _ _ => 43690) (fun _ _ => 0) c)) := by
  obtain ⟨mat, hmat, hzero⟩ := fixed_expandMat (((fixedXof.hash 96 coins).drop 32).take 32)
  choose s1 hs1 hs1q using fixed_eta1 ((fixedXof.hash 96 coins).take 32)
  choose s2 hs2 hs2q using fixed_eta2 ((fixedXof.hash 96 coins).take 32)
  obtain ⟨pk, hkey⟩ := keypair_of_samples hmat (fun j => hs1 j) (fun i => hs2 _)
    (t_zero hzero (fun j => hs1q j) fun i => hs2q _)
  have ht0 : ∀ i n, (polyveckPower2round .params3 fun _ _ => 0).2 i n = params3.q := by
    intro i n
    have h0 : (power2round .params3 0).2 = params3.q := by decide
    exact h0
  obtain ⟨c, hc, hsig⟩ := fixed_signs (mExtended m []) ((fixedXof.hash 96 coins).drop 32 ++ fixedXof.hash 48 pk)
    (by simp [Xof.hash]) (fun j => hs1q j) (fun i => hs2q _) ht0
  refine ⟨pk, _, c, hc, hkey, ?_⟩
  rw [cryptoSignSignature, if_neg (by simp), hsig]
  rfl

/-- The theorem on the run of this hash, for a seed and a message. -/
theorem sign_verifies_fixed : ∃ pk sk sig,
    cryptoSignKeypairInternal fixedXof .params3 (List.replicate 32 7) = some (pk, sk) ∧
      cryptoSignSignature fixedXof .params3 1 [1, 2, 3] [] sk = some (.ok sig) ∧
      cryptoSignVerify fixedXof .params3 1 sig [1, 2, 3] [] pk = some 0 := by
  obtain ⟨pk, sk, c, -, hkey, hsig⟩ := fixed_run (List.replicate 32 7) [1, 2, 3]
  exact ⟨pk, sk, _, hkey, hsig, sign_verifies hkey hsig⟩

/-! ## accepted signatures -/

section

variable {x : Xof} {p} {fuel : ℕ} {sig m ctx pk sk : Bytes}

/-- A signature is accepted with a challenge that was drawn again. -/
theorem verifyInternal_inv (h : cryptoSignVerifyInternal x p fuel sig m pk = some 0) :
    p.sigSize ≤ sig.length ∧ ∃ parts, unpackSig p sig = some parts ∧
      ∃ mu w1, challenge x p fuel mu w1 = some parts.c := by
  simp only [cryptoSignVerifyInternal] at h
  split at h
  · simp at h
  · next hlen =>
    split at h
    · simp at h
    · next z hint c hsig =>
      refine ⟨Nat.not_lt.mp hlen, ⟨z, hint, c⟩, hsig, ?_⟩
      split at h
      · simp at h
      · simp only [Option.bind_eq_bind, Option.bind_eq_some_iff] at h
        obtain ⟨mat, -, cp, hcp, hret⟩ := h
        split at hret
        · simp at hret
        · next hc => exact ⟨_, _, by rw [hcp, not_not.mp hc]⟩

/-- The length of a signature and the sign bits that sixty signs leave unused. -/
def Canonical (p : ParamSet) (sig : Bytes) : Prop :=
  sig.length = p.sigSize ∧ byteAt sig (p.sigSize - 1) < 16

theorem unpackSigns_lt_iff {b : ℕ → ℕ} (hb : ∀ j, b j < 256) : unpackSigns b < 2 ^ 60 ↔ b 39 < 16 := by
  have h32 := hb 32; have h33 := hb 33; have h34 := hb 34; have h35 := hb 35
  have h36 := hb 36; have h37 := hb 37; have h38 := hb 38
  rw [unpackSigns_eq hb]
  omega

theorem packSig_eq_iff_canonical (hok : cryptoSignVerify x p fuel sig m ctx pk = some 0)
    {parts : SigParts p} (hsig : unpackSig p sig = some parts) :
    packSig p parts.z parts.h parts.c = sig ↔ Canonical p sig := by
  unfold cryptoSignVerify at hok
  split at hok
  · simp at hok
  · obtain ⟨hlen, parts', hsig', mu, w1, hc⟩ := verifyInternal_inv hok
    obtain rfl : parts' = parts := Option.some.inj (hsig'.symm.trans hsig)
    have hsize : p.sigSize - 40 + 39 = p.sigSize - 1 := by unfold ParamSet.sigSize; omega
    rw [packSig_unpack hlen hsig, (challenge_spec hc).2, unpackSigns_lt_iff (byteAt_lt _), byteAt_drop,
      hsize]
    rfl

/-- **Encodings of accepted signatures**: an accepted input is what its values
pack to when it has the length of a signature and the unused sign bits are
clear; and no two such inputs decode to the same values. -/
theorem accepted_packed_iff (hok : cryptoSignVerify x p fuel sig m ctx pk = some 0)
    {parts : SigParts p} (hsig : unpackSig p sig = some parts) :
    (packSig p parts.z parts.h parts.c = sig ↔ Canonical p sig) ∧
      ∀ sig', cryptoSignVerify x p fuel sig' m ctx pk = some 0 → unpackSig p sig' = some parts →
        Canonical p sig' → (sig = sig' ↔ Canonical p sig) := by
  refine ⟨packSig_eq_iff_canonical hok hsig, fun sig' hok' hsig' hcan' => ?_⟩
  rw [← (packSig_eq_iff_canonical hok' hsig').mpr hcan', ← packSig_eq_iff_canonical hok hsig]
  exact eq_comm

end

/-- Inputs that decode alike are accepted alike. -/
theorem verify_congr {x : Xof} {p : ParamSet} {fuel : ℕ} {sig sig' m ctx pk : Bytes}
    (hlen : p.sigSize ≤ sig.length) (hlen' : p.sigSize ≤ sig'.length) (h : unpackSig p sig = unpackSig p sig') :
    cryptoSignVerify x p fuel sig m ctx pk = cryptoSignVerify x p fuel sig' m ctx pk := by
  simp only [cryptoSignVerify, cryptoSignVerifyInternal, if_neg (Nat.not_lt.mpr hlen),
    if_neg (Nat.not_lt.mpr hlen'), h]

/-- The hint of zeros packs to no position. -/
theorem hintWeight_zero : hintWeight (p := p) (fun _ _ => 0) = 0 := by
  rw [hintWeight_eq fun _ _ => .inl rfl]
  simp only [List.sum_map_zero]

/-- The signature of the run up to its challenge. -/
def fixedFront : Bytes :=
  packVec (polyzPack .params3) (fun (_ : Fin params3.l) _ => 43690) ++ packHints .params3 fun _ _ => 0

/-- Behind it the bytes of the challenge decide. -/
theorem fixed_unpackSig (rest : Bytes) : unpackSig .params3 (fixedFront ++ rest) =
    some ⟨fun _ _ => 43690, fun _ _ => 0, unpackC .params3 (byteAt rest)⟩ := by
  have hz : 43690 < params3.q ∧ zMap .params3 43690 < 2 ^ 18 := by decide
  exact unpackSig_append (fun _ _ => hz) (fun _ _ => .inl rfl) (by rw [hintWeight_zero]; exact Nat.zero_le _) rest

theorem length_fixedFront : fixedFront.length + 40 = params3.sigSize := by
  have hpack := length_packSig (p := .params3) (z := fun _ _ => 43690)
    (show hintWeight (p := .params3) (fun _ _ => 0) ≤ _ by rw [hintWeight_zero]; exact Nat.zero_le _)
    fun _ => 0
  rw [packSig, List.length_append, length_packC] at hpack
  exact hpack

/-- The word of signs with its four top bits set. -/
def setTopSigns (b : Bytes) : Bytes := b.take 39 ++ [UInt8.ofNat (byteAt b 39 + 240)]

theorem unpackC_setTopSigns {p : ParamSet} {c : Poly} (hc : IsChallenge p c) :
    unpackC p (byteAt (setTopSigns (packC p c))) = c := by
  have hpack := unpackC_pack hc.1 (by rw [hc.2]; omega) []
  rw [List.append_nil] at hpack
  have hlen : ((packC p c).take 39).length = 39 := by rw [List.length_take, length_packC]; rfl
  have hlast : byteAt (setTopSigns (packC p c)) 39 = (byteAt (packC p c) 39 + 240) % 256 := by
    have hright := byteAt_append_right ((packC p c).take 39) [UInt8.ofNat (byteAt (packC p c) 39 + 240)] 0
    rw [hlen, Nat.add_zero] at hright
    rw [setTopSigns, hright]
    simp [byteAt]
  conv_rhs => rw [← hpack]
  refine unpackC_congr (byteAt_lt _) (byteAt_lt _) (fun j hj => ?_) ?_ (by rw [hpack, hc.2])
  · rw [setTopSigns, byteAt_append_left _ (by omega), byteAt_take _ hj]
  · rw [hlast]
    omega

theorem length_setTopSigns {p : ParamSet} (c : Poly) : (setTopSigns (packC p c)).length = 40 := by
  rw [setTopSigns, List.length_append, List.length_take, length_packC]
  rfl

theorem setTopSigns_ne (b : Bytes) (hb : b.length = 40) : setTopSigns b ≠ b := by
  intro h
  have hbyte := byteAt_append_right (b.take 39) [UInt8.ofNat (byteAt b 39 + 240)] 0
  rw [List.length_take_of_le (by omega), ← setTopSigns, h] at hbyte
  have hlt := byteAt_lt b 39
  simp only [byteAt, List.getD_cons_zero, UInt8.toNat_ofNat', Nat.add_zero] at hbyte hlt
  omega

/-- An accepted signature of the run. -/
theorem fixed_accepted : ∃ pk c, IsChallenge .params3 c ∧
    cryptoSignVerify fixedXof .params3 1 (fixedFront ++ packC .params3 c) [] [] pk = some 0 ∧
    (fixedFront ++ packC .params3 c).length = params3.sigSize ∧
    ∀ rest, unpackC .params3 (byteAt rest) = c →
      unpackSig .params3 (fixedFront ++ rest) = some ⟨fun _ _ => 43690, fun _ _ => 0, c⟩ := by
  obtain ⟨pk, sk, c, hc, hkey, hsig⟩ := fixed_run [] []
  obtain ⟨rho, key, mat, s1, s2, t1, t0, hk, hpk, hsk⟩ := keypair_inv hkey
  rw [cryptoSignSignature, if_neg (by simp), Option.map_eq_some_iff] at hsig
  obtain ⟨sig, hint, hsig⟩ := hsig
  obtain rfl : sig = fixedFront ++ packC .params3 c := Except.ok.inj hsig
  refine ⟨pk, c, hc, ?_, ?_, fun rest hrest => ?_⟩
  · rw [cryptoSignVerify, if_neg (by simp)]
    exact signInternal_verifies hk hpk hsk hint
  · rw [List.length_append, length_packC, length_fixedFront]
  · rw [fixed_unpackSig, hrest]

/-- The theorem on that signature. -/
theorem accepted_packed_fixed : ∃ pk sig parts,
    cryptoSignVerify fixedXof .params3 1 sig [] [] pk = some 0 ∧ unpackSig .params3 sig = some parts ∧
      (packSig .params3 parts.z parts.h parts.c = sig ↔ Canonical .params3 sig) := by
  obtain ⟨pk, c, hc, hok, -, hdec⟩ := fixed_accepted
  have hc0 := unpackC_pack hc.1 (by rw [hc.2]; omega) []
  rw [List.append_nil] at hc0
  exact ⟨pk, _, _, hok, hdec _ hc0, (accepted_packed_iff hok (hdec _ hc0)).1⟩

/-- **Second encodings**: of an accepted signature, with a byte behind it or
with the unused sign bits set, each is accepted and decodes to the same values. -/
theorem two_encodings : ∃ pk sig sig₁ sig₂ parts,
    (cryptoSignVerify fixedXof .params3 1 sig [] [] pk = some 0 ∧ unpackSig .params3 sig = some parts) ∧
    (cryptoSignVerify fixedXof .params3 1 sig₁ [] [] pk = some 0 ∧ unpackSig .params3 sig₁ = some parts) ∧
    (cryptoSignVerify fixedXof .params3 1 sig₂ [] [] pk = some 0 ∧ unpackSig .params3 sig₂ = some parts) ∧
    sig₁.length = sig.length + 1 ∧ sig₂.length = sig.length ∧ sig₂ ≠ sig := by
  obtain ⟨pk, c, hc, hok, hlen, hdec⟩ := fixed_accepted
  have hc0 := unpackC_pack hc.1 (by rw [hc.2]; omega) []
  rw [List.append_nil] at hc0
  have hc1 := unpackC_pack hc.1 (by rw [hc.2]; omega) [0]
  have hc2 := unpackC_setTopSigns hc
  have hfront := length_fixedFront
  have hok' : ∀ rest, unpackC .params3 (byteAt rest) = c → 40 ≤ rest.length →
      cryptoSignVerify fixedXof .params3 1 (fixedFront ++ rest) [] [] pk = some 0 := by
    intro rest hrest hlong
    rw [← hok]
    exact verify_congr (by rw [List.length_append]; omega) hlen.ge ((hdec rest hrest).trans (hdec _ hc0).symm)
  refine ⟨pk, _, fixedFront ++ (packC .params3 c ++ [0]), fixedFront ++ setTopSigns (packC .params3 c), _,
    ⟨hok, hdec _ hc0⟩, ⟨hok' _ hc1 ?_, hdec _ hc1⟩, ⟨hok' _ hc2 ?_, hdec _ hc2⟩, ?_, ?_, ?_⟩
  · rw [List.length_append, length_packC]
    omega
  · rw [length_setTopSigns]
  · simp only [List.length_append, List.length_singleton, Nat.add_assoc]
  · rw [List.length_append, List.length_append, length_setTopSigns, length_packC]
  · intro h
    exact setTopSigns_ne _ (length_packC c) (List.append_cancel_left h)

end Tlcp.AigisSig
