import Tlcp.MlDsa.Polyvec
import Tlcp.MlDsa.Sampling

/-!
# Tlcp.MlDsa.Sign

Keys, signatures and their verification (`sign.c`).  The loops that draw until something fits are given a bound; a
function that returns nothing has run out of it.

Main result: `signed_verifies`, what is signed verifies.
-/

namespace Tlcp.MlDsa

open Octets Signed Lattice BitPack Packed Loop

/-! ## the functions -/

/-- `polyvec_matrix_expand`. -/
def polyvecMatrixExpand (x : Xof) (p : ParamSet) (fuel : ℕ) (rho : Bytes) :
    Option (Fin p.k → Fin p.l → Poly) :=
  collect fun i => collect fun j => polyUniform x fuel rho (i.val <<< 8 + j)

/-- The product of the matrix with a transformed vector. -/
def matVec {k l : ℕ} (mat : Fin k → Fin l → Poly) (v : Fin l → Poly) : Fin k → Poly :=
  polyvecInvnttTomont (polyvecReduce (polyvecMatrixPointwiseMontgomery mat v))

/-- The product of a transformed polynomial with a transformed vector. -/
def polyMulVec {n : ℕ} (chat : Poly) (v : Fin n → Poly) : Fin n → Poly :=
  polyvecInvnttTomont (polyvecPointwisePolyMontgomery chat v)

/-- `crypto_sign_keypair_internal`: the public and the secret key. -/
def cryptoSignKeypairInternal (x : Xof) (p : ParamSet) (fuel : ℕ) (coins : Bytes) :
    Option (Bytes × Bytes) := do
  let seedbuf := x.hash 128 (coins ++ [UInt8.ofNat p.k, UInt8.ofNat p.l])
  let rho := seedbuf.take 32
  let rhoprime := (seedbuf.drop 32).take 64
  let key := seedbuf.drop 96
  let mat ← polyvecMatrixExpand x p fuel rho
  let s1 : Fin p.l → Poly ← collect fun i => polyUniformEta x p fuel rhoprime i
  let s2 : Fin p.k → Poly ← collect fun i => polyUniformEta x p fuel rhoprime (p.l + i)
  let t := polyveckCaddq (polyvecAdd (matVec mat (polyvecNtt s1)) s2)
  let (t1, t0) := polyveckPower2round t
  let pk := packPk p rho t1
  some (pk, packSk p ⟨rho, x.hash 64 pk, key, t0, s1, s2⟩)

/-- What a signer holds before its loop. -/
structure Signer (p : ParamSet) where
  mat : Fin p.k → Fin p.l → Poly
  s1 : Fin p.l → Poly
  s2 : Fin p.k → Poly
  t0 : Fin p.k → Poly
  mu : Bytes
  rhoprime : Bytes

/-- The bytes that a challenge is drawn from. -/
def ctilde (x : Xof) (p : ParamSet) (mu : Bytes) (w1 : Fin p.k → Poly) : Bytes :=
  x.hash p.ctildebytes (mu ++ packVec (polyw1Pack p) w1)

/-- A round of `crypto_sign_signature_internal` from the label `rej` on: the
signature, or nothing where it goes back to the label. -/
def signRound (x : Xof) (p : ParamSet) (fuel : ℕ) (s : Signer p) (nonce : ℕ) : Option (Option Bytes) := do
  let y : Fin p.l → Poly := fun i => polyUniformGamma1 x p s.rhoprime (p.l * nonce + i)
  let (w1, w0) := polyveckDecompose p (polyveckCaddq (matVec s.mat (polyvecNtt y)))
  let sig := ctilde x p s.mu w1
  let cp ← polyChallenge x p fuel sig
  let cp := ntt cp
  let z := polyvecReduce (polyvecAdd (polyMulVec cp s.s1) y)
  if polyvecChknorm z (p.gamma1 - p.beta) then some none
  else
    let w0 := polyvecReduce (polyveckSub w0 (polyMulVec cp s.s2))
    if polyvecChknorm w0 (p.gamma2 - p.beta) then some none
    else
      let h := polyvecReduce (polyMulVec cp s.t0)
      if polyvecChknorm h p.gamma2 then some none
      else
        let (h, n) := polyveckMakeHint p (polyvecAdd w0 h) w1
        if p.omega < n then some none
        else some (some (packSig p sig z h))

/-- `crypto_sign_signature_internal`; the nonce is a `uint16_t`. -/
def cryptoSignSignatureInternal (x : Xof) (p : ParamSet) (fuel : ℕ) (m coins sk : Bytes) : Option Bytes := do
  let ⟨rho, tr, key, t0, s1, s2⟩ := unpackSk p sk
  let mu := x.hash 64 (tr ++ m)
  let rhoprime := x.hash 64 (key ++ coins ++ mu)
  let mat ← polyvecMatrixExpand x p fuel rho
  let s : Signer p := ⟨mat, polyvecNtt s1, polyvecNtt s2, polyvecNtt t0, mu, rhoprime⟩
  repeatUntil
    (fun nonce => (signRound x p fuel s nonce).map fun
      | some sig => .inr sig
      | none => .inl ((nonce + 1) % 2 ^ 16))
    fuel 0

/-- `m_extended`: the message behind its context. -/
def mExtended (m ctx : Bytes) : Bytes := [0, UInt8.ofNat ctx.length] ++ ctx ++ m

/-- `crypto_sign_signature` with its random bytes: the return value where there
is no signature. -/
def cryptoSignSignature (x : Xof) (p : ParamSet) (fuel : ℕ) (m ctx coins sk : Bytes) :
    Option (Except ℤ Bytes) :=
  if 255 < ctx.length then some (.error (-1))
  else (cryptoSignSignatureInternal x p fuel (mExtended m ctx) coins sk).map .ok

/-- The vector `w1` of `crypto_sign_verify_internal` that the hints are used on. -/
def verifyW1 {k l : ℕ} (mat : Fin k → Fin l → Poly) (z : Fin l → Poly) (cp : Poly) (t1 : Fin k → Poly) :
    Fin k → Poly :=
  let w1 := polyvecMatrixPointwiseMontgomery mat (polyvecNtt z)
  let t1 := polyvecPointwisePolyMontgomery (ntt cp) (polyvecNtt (polyveckShiftl t1))
  polyveckCaddq (polyvecInvnttTomont (polyvecReduce (polyveckSub w1 t1)))

/-- `crypto_sign_verify_internal`. -/
def cryptoSignVerifyInternal (x : Xof) (p : ParamSet) (fuel : ℕ) (sig m pk : Bytes) : Option ℤ :=
  if sig.length ≠ p.cryptoBytes then some (-1)
  else
    let (rho, t1) := unpackPk p pk
    match unpackSig p sig with
    | none => some (-1)
    | some ⟨c, z, h⟩ =>
      if polyvecChknorm z (p.gamma1 - p.beta) then some (-1)
      else do
        let mu := x.hash 64 (x.hash 64 pk ++ m)
        let cp ← polyChallenge x p fuel c
        let mat ← polyvecMatrixExpand x p fuel rho
        let w1 := polyveckUseHint p (verifyW1 mat z cp t1) h
        let c2 := ctilde x p mu w1
        if c ≠ c2 then some (-1) else some 0

/-- `crypto_sign_verify`. -/
def cryptoSignVerify (x : Xof) (p : ParamSet) (fuel : ℕ) (sig m ctx pk : Bytes) : Option ℤ :=
  if 255 < ctx.length then some (-1)
  else cryptoSignVerifyInternal x p fuel sig (mExtended m ctx) pk

/-! ## residues -/

section

variable {p : ParamSet} {a c : Poly} {n k l : ℕ} {mat : Fin k → Fin l → Poly} {row v z : Fin l → Poly}
  {t1 : Fin k → Poly}

/-- The residues of a row of the matrix times a vector. -/
def rowRes (row v : Fin l → Poly) : Fin 256 → ZMod q :=
  rowHat nttRes invnttRes rho (fun j => residues q (row j)) fun j => residues q (v j)

/-- The residues of the challenge times a polynomial. -/
def mulRes (c a : Poly) : Fin 256 → ZMod q :=
  mulHat nttRes invnttRes rho (nttRes (residues q c)) (residues q a)

/-- The coefficients of a polynomial are as `ntt` takes them. -/
def Small (a : Poly) : Prop := ∀ i, -(q : ℤ) ≤ a i ∧ a i ≤ q

theorem Small.ntt_rep (h : Small a) : Reps q (9 * q) (ntt a) (nttRes (residues q a)) :=
  MlDsa.ntt_rep (reps_residues h) le_rfl

theorem Small.of_range {b : ℤ} (hb : b ≤ q) (h : ∀ i, -b ≤ a i ∧ a i ≤ b) : Small a :=
  fun i => ⟨by have := (h i).1; omega, by have := (h i).2; omega⟩

theorem acc_rep (hl : 0 < l) (hl' : l ≤ 7) (hrow : ∀ j n, 0 ≤ row j n ∧ row j n < q)
    (hv : ∀ j, Small (v j)) :
    Reps q (7 * (q - 1)) (polyveclPointwiseAccMontgomery row (polyvecNtt v))
      (rho • ∑ j, residues q (row j) * nttRes (residues q (v j))) := by
  refine polyveclPointwiseAcc_rep hl hl' (fun j => reps_residues fun n => ?_) fun j => (hv j).ntt_rep
  have hn := hrow j n
  omega

theorem matVec_rep (hl : 0 < l) (hl' : l ≤ 7)
    (hmat : ∀ i j n, 0 ≤ mat i j n ∧ mat i j n < q) (hv : ∀ j, Small (v j)) (i : Fin k) :
    Reps q (q - 1) (matVec mat (polyvecNtt v) i) (rowRes (mat i) v) := by
  have hred := polyReduce_rep (acc_rep hl hl' (hmat i) hv) (by decide)
  exact invntt_rep (hred.mono (by decide))

theorem polyMulVec_rep {v : Fin n → Poly} (hc : Small c) (hv : ∀ j, Small (v j)) (j : Fin n) :
    Reps q (q - 1) (polyMulVec (ntt c) (polyvecNtt v) j) (mulRes c (v j)) :=
  invntt_rep (polyPointwise_rep hc.ntt_rep (hv j).ntt_rep)

theorem verifyW1_spec (hl : 0 < l) (hl' : l ≤ 7)
    (hmat : ∀ i j n, 0 ≤ mat i j n ∧ mat i j n < q) (hz : ∀ j, Small (z j)) (hc : Small c)
    (ht1 : ∀ i n, 0 ≤ t1 i n ∧ t1 i n < 2 ^ 10) (i : Fin k) (n : Fin 256) :
    0 ≤ verifyW1 mat z c t1 i n ∧ verifyW1 mat z c t1 i n < q ∧
      ((verifyW1 mat z c t1 i n : ℤ) : ZMod q) =
        invnttRes (rho • ∑ j, residues q (mat i j) * nttRes (residues q (z j)) -
          rho • (nttRes (residues q c) * nttRes (residues q (polyShiftl (t1 i))))) n := by
  have ht1s : Small (polyShiftl (t1 i)) := fun n => by
    have := (polyShiftl_eq (ht1 i) n).2
    omega
  have hprod := polyPointwise_rep hc.ntt_rep ht1s.ntt_rep
  have hdiff := polySub_rep (acc_rep hl hl' (hmat i) hz) hprod (by decide)
  exact polyCaddq_spec (invntt_rep ((polyReduce_rep hdiff (by decide)).mono (by decide))) n

end

/-! ## honest signatures -/

section

variable {x : Xof} {p : ParamSet} {fuel fuel' : ℕ} {coins m ctx rnd pk sk sig : Bytes}
  {mat mat' : Fin p.k → Fin p.l → Poly} {t1 : Fin p.k → Poly} {v y z : Fin p.l → Poly} {c : Poly}

theorem l_range (p : ParamSet) : 0 < p.l ∧ p.l ≤ 7 := by cases p <;> decide

/-- **Multiplication** is exact modulo `x ^ 256 + 1`, where an entry of the matrix is
a transform. -/
theorem multiplication_exact (hmat : ∀ i j n, 0 ≤ mat i j n ∧ mat i j n < q)
    (hv : ∀ j, Small (v j)) (hc : Small c) :
    (∀ i, Reps q (q - 1) (matVec mat (polyvecNtt v) i)
        (∑ j, Ntt.negaMul (invnttRes (rho • residues q (mat i j))) (residues q (v j)))) ∧
      ∀ j, Reps q (q - 1) (polyMulVec (ntt c) (polyvecNtt v) j)
        (Ntt.negaMul (residues q c) (residues q (v j))) := by
  have : NeZero q := ⟨by decide⟩
  obtain ⟨hl, hl'⟩ := l_range p
  constructor
  · intro i
    rw [← rowHat_eq nttRes_invnttRes_smul (.refl _) nttRes_negaMul]
    exact matVec_rep hl hl' hmat hv i
  · intro j
    rw [← mulHat_eq nttRes_invnttRes_smul (.refl _) nttRes_negaMul]
    exact polyMulVec_rep hc hv j

theorem multiplication_exact_ones : Reps q (q - 1)
    (polyMulVec (ntt fun _ => 1) (polyvecNtt fun (_ : Fin ParamSet.mode44.l) _ => 1) ⟨0, by decide⟩)
    (Ntt.negaMul (residues q fun _ => 1) (residues q fun _ => 1)) := by
  have hsmall : Small fun _ => 1 := fun _ => show -(q : ℤ) ≤ 1 ∧ (1 : ℤ) ≤ q by decide
  exact (@multiplication_exact .mode44 (fun _ _ _ => 0) _ _ (fun _ _ _ => by decide) (fun _ => hsmall) hsmall).2 _

theorem polyvecMatrixExpand_range {rho : Bytes} (h : polyvecMatrixExpand x p fuel rho = some mat)
    (i : Fin p.k) (j : Fin p.l) (n : Fin 256) :
    0 ≤ mat i j n ∧ mat i j n < q :=
  polyUniform_range (collect_eq_some.mp (collect_eq_some.mp h i) j) n

theorem polyvecMatrixExpand_unique {rho : Bytes} (h : polyvecMatrixExpand x p fuel rho = some mat)
    (h' : polyvecMatrixExpand x p fuel' rho = some mat') :
    mat = mat' :=
  funext fun i => funext fun j => polyUniform_unique (collect_eq_some.mp (collect_eq_some.mp h i) j)
    (collect_eq_some.mp (collect_eq_some.mp h' i) j)

/-- A key pair: the secrets are small, and the public vector with the low parts
is the matrix times the first secret plus the second. -/
structure HonestKey (x : Xof) (p : ParamSet) (fuel : ℕ) (s : SkParts p) (mat : Fin p.k → Fin p.l → Poly)
    (t1 : Fin p.k → Poly) : Prop where
  rho_length : s.rho.length = 32
  key_length : s.key.length = 32
  tr_eq : s.tr = x.hash 64 (packPk p s.rho t1)
  mat_eq : polyvecMatrixExpand x p fuel s.rho = some mat
  s1_range : ∀ j n, -p.eta ≤ s.s1 j n ∧ s.s1 j n ≤ p.eta
  s2_range : ∀ i n, -p.eta ≤ s.s2 i n ∧ s.s2 i n ≤ p.eta
  t1_range : ∀ i n, 0 ≤ t1 i n ∧ t1 i n < 2 ^ 10
  t0_range : ∀ i n, -2 ^ (d - 1) < s.t0 i n ∧ s.t0 i n ≤ 2 ^ (d - 1)
  t_eq : ∀ i, residues q (polyShiftl (t1 i)) + residues q (s.t0 i) =
    rowRes (mat i) s.s1 + residues q (s.s2 i)

theorem eta_le (p : ParamSet) : p.eta ≤ 4 := by cases p <;> decide

theorem small_of_eta {a : Poly} (h : ∀ n, -p.eta ≤ a n ∧ a n ≤ p.eta) : Small a :=
  .of_range ((eta_le p).trans (by decide)) h

/-- The words that `power2round` is given, and what it makes of them. -/
theorem t_spec {a b : Poly} {u : Fin 256 → ZMod q} (ha : Reps q (q - 1) a u)
    (hb : ∀ n, -p.eta ≤ b n ∧ b n ≤ p.eta) (n : Fin 256) :
    -4 ≤ polyCaddq (polyAdd a b) n ∧ polyCaddq (polyAdd a b) n < q + 4 ∧
      ((polyCaddq (polyAdd a b) n : ℤ) : ZMod q) = u n + (b n : ℤ) := by
  have hq := q_eq
  have hη := eta_le p
  have hbn := hb n
  have hlo := (ha n).lo
  have hhi := (ha n).hi
  have hsum : polyAdd a b n = a n + b n := int32_of_lt (by omega) (by omega)
  have hcast : ((a n + b n : ℤ) : ZMod q) = u n + (b n : ℤ) := by rw [Int.cast_add, (ha n).cast]
  rw [polyCaddq, hsum]
  refine ⟨?_, ?_, (caddq_cast (by omega) (by omega)).trans hcast⟩
  all_goals
    rw [caddq_eq (by omega) (by omega)]
    split <;> omega

theorem keypair_inv (h : cryptoSignKeypairInternal x p fuel coins = some (pk, sk)) :
    ∃ s mat t1, HonestKey x p fuel s mat t1 ∧ pk = packPk p s.rho t1 ∧ sk = packSk p s := by
  have hlen : (x.hash 128 (coins ++ [UInt8.ofNat p.k, UInt8.ofNat p.l])).length = 128 := by simp [Xof.hash]
  simp only [cryptoSignKeypairInternal, Option.bind_eq_bind, Option.bind_eq_some_iff] at h
  generalize x.hash 128 (coins ++ [UInt8.ofNat p.k, UInt8.ofNat p.l]) = seedbuf at h hlen
  obtain ⟨mat, hmat, s1, hs1, s2, hs2, hout⟩ := h
  generalize hteq : polyveckCaddq (polyvecAdd (matVec mat (polyvecNtt s1)) s2) = t at hout
  obtain ⟨rfl, rfl⟩ := Prod.mk.inj (Option.some.inj hout)
  have hs1r := fun j => polyUniformEta_range (collect_eq_some.mp hs1 j)
  have hs2r := fun i => polyUniformEta_range (collect_eq_some.mp hs2 i)
  have hrow := matVec_rep (l_range p).1 (l_range p).2 (polyvecMatrixExpand_range hmat)
    fun j => small_of_eta (hs1r j)
  have ht : ∀ i n, -4 ≤ t i n ∧ t i n < q + 4 ∧
      ((t i n : ℤ) : ZMod q) = rowRes (mat i) s1 n + (s2 i n : ℤ) := by
    rw [← hteq]
    exact fun i n => t_spec (hrow i) (hs2r i) n
  have hround := fun i n => power2round_spec (ht i n).1 (ht i n).2.1
  refine ⟨⟨seedbuf.take 32, x.hash 64 (packPk p (seedbuf.take 32) (polyveckPower2round t).1), seedbuf.drop 96,
    (polyveckPower2round t).2, s1, s2⟩, mat, (polyveckPower2round t).1,
    ⟨?_, ?_, rfl, hmat, hs1r, hs2r, ?_, ?_, ?_⟩, rfl, rfl⟩
  · simp [hlen]
  · simp [hlen]
  · exact fun i n => ⟨(hround i n).2.1, (hround i n).2.2.1⟩
  · exact fun i n => (hround i n).2.2.2
  · intro i
    funext n
    obtain ⟨hsum, hlo, hhi, -⟩ := hround i n
    have hshift : polyShiftl (fun n => (power2round (t i n)).1) n = (power2round (t i n)).1 * 2 ^ d :=
      (polyShiftl_eq (fun n => ⟨(hround i n).2.1, (hround i n).2.2.1⟩) n).1
    have hcast := (ht i n).2.2
    rw [hsum] at hcast
    simp only [Pi.add_apply, residues, polyveckPower2round]
    rw [hshift, ← Int.cast_add]
    exact hcast

/-- What a round that gives a signature has computed and tested. -/
theorem signRound_inv {s : Signer p} {nonce : ℕ} (h : signRound x p fuel s nonce = some (some sig)) :
    ∃ (y z : Fin p.l → Poly) (w w0 ct0 : Fin p.k → Poly) (c : Poly),
      (∀ j n, -p.gamma1 < y j n ∧ y j n ≤ p.gamma1) ∧
      w = polyveckCaddq (matVec s.mat (polyvecNtt y)) ∧
      polyChallenge x p fuel (ctilde x p s.mu (polyveckDecompose p w).1) = some c ∧
      z = polyvecReduce (polyvecAdd (polyMulVec (ntt c) s.s1) y) ∧
      polyvecChknorm z (p.gamma1 - p.beta) = false ∧
      w0 = polyvecReduce (polyveckSub (polyveckDecompose p w).2 (polyMulVec (ntt c) s.s2)) ∧
      polyvecChknorm w0 (p.gamma2 - p.beta) = false ∧
      ct0 = polyvecReduce (polyMulVec (ntt c) s.t0) ∧
      polyvecChknorm ct0 p.gamma2 = false ∧
      (polyveckMakeHint p (polyvecAdd w0 ct0) (polyveckDecompose p w).1).2 ≤ p.omega ∧
      sig = packSig p (ctilde x p s.mu (polyveckDecompose p w).1) z
        (polyveckMakeHint p (polyvecAdd w0 ct0) (polyveckDecompose p w).1).1 := by
  simp only [signRound, Option.bind_eq_bind, Option.bind_eq_some_iff] at h
  obtain ⟨c, hc, h⟩ := h
  split at h
  · simp at h
  · next hz =>
    split at h
    · simp at h
    · next hw0 =>
      split at h
      · simp at h
      · next hct0 =>
        split at h
        · simp at h
        · next hn =>
          exact ⟨_, _, _, _, _, c, fun j n => polyzUnpack_range _ n, rfl, hc, rfl,
            Bool.not_eq_true _ ▸ hz, rfl, Bool.not_eq_true _ ▸ hw0, rfl, Bool.not_eq_true _ ▸ hct0,
            not_lt.mp hn, (Option.some.inj (Option.some.inj h)).symm⟩

theorem signInternal_inv {s : SkParts p} (hsk : unpackSk p sk = s)
    (h : cryptoSignSignatureInternal x p fuel m rnd sk = some sig) :
    ∃ mat rhoprime nonce, polyvecMatrixExpand x p fuel s.rho = some mat ∧
      signRound x p fuel ⟨mat, polyvecNtt s.s1, polyvecNtt s.s2, polyvecNtt s.t0, x.hash 64 (s.tr ++ m),
        rhoprime⟩ nonce = some (some sig) := by
  simp only [cryptoSignSignatureInternal, hsk, Option.bind_eq_bind, Option.bind_eq_some_iff] at h
  obtain ⟨mat, hmat, hloop⟩ := h
  refine ⟨mat, x.hash 64 (s.key ++ rnd ++ x.hash 64 (s.tr ++ m)), ?_⟩
  refine repeatUntil_inv (P := fun _ => True) (Q := fun sig => ∃ nonce, _ ∧ signRound x p fuel _ nonce =
    some (some sig)) (fun _ _ _ _ => trivial) (fun nonce sig _ hstep => ⟨nonce, hmat, ?_⟩) trivial hloop
  obtain ⟨r, hr, hsig⟩ := Option.map_eq_some_iff.mp hstep
  cases r with
  | none => simp at hsig
  | some sig' => rw [hr, Sum.inr.inj hsig]

variable {s : SkParts p}

theorem HonestKey.t0_small (hk : HonestKey x p fuel s mat t1) (i : Fin p.k) : Small (s.t0 i) :=
  .of_range (b := 2 ^ (d - 1)) (by decide) fun n => ⟨(hk.t0_range i n).1.le, (hk.t0_range i n).2⟩

theorem gamma1_range (p : ParamSet) : p.gamma1 ≤ 2 ^ 19 ∧ 0 < p.beta ∧ p.beta < p.gamma1 ∧
    p.beta < p.gamma2 := by
  cases p <;> decide

theorem z_rep {s1 : Fin p.l → Poly} (hs1 : ∀ j, Small (s1 j)) (hc : Small c)
    (hy : ∀ j n, -p.gamma1 < y j n ∧ y j n ≤ p.gamma1) (j : Fin p.l) :
    Reps q 6283009 (polyvecReduce (polyvecAdd (polyMulVec (ntt c) (polyvecNtt s1)) y) j)
      (mulRes c (s1 j) + residues q (y j)) := by
  have hg := gamma1_range p
  have hyrep : Reps q (2 ^ 19) (y j) (residues q (y j)) := reps_residues fun n => by
    have := hy j n
    omega
  exact polyReduce_rep (polyAdd_rep (polyMulVec_rep hc hs1 j) hyrep (by decide)) (by decide)

theorem ct0_rep {t0 : Fin p.k → Poly} (ht0 : ∀ i, Small (t0 i)) (hc : Small c) (i : Fin p.k) :
    Reps q 6283009 (polyvecReduce (polyMulVec (ntt c) (polyvecNtt t0)) i) (mulRes c (t0 i)) :=
  polyReduce_rep (polyMulVec_rep hc ht0 i) (by decide)

/-- The words of the signer's commitment, split by `decompose`. -/
theorem w_spec (hmat : ∀ i j n, 0 ≤ mat i j n ∧ mat i j n < q) (hy : ∀ j, Small (y j)) (i : Fin p.k)
    (n : Fin 256) :
    0 ≤ polyveckCaddq (matVec mat (polyvecNtt y)) i n ∧ polyveckCaddq (matVec mat (polyvecNtt y)) i n < q ∧
      ((polyveckCaddq (matVec mat (polyvecNtt y)) i n : ℤ) : ZMod q) = rowRes (mat i) y n :=
  polyCaddq_spec (matVec_rep (l_range p).1 (l_range p).2 hmat hy i) n

/-- The low parts less the challenge times the second secret. -/
theorem w0_rep {w s2 : Fin p.k → Poly} (hw : ∀ i n, 0 ≤ w i n ∧ w i n < q) (hs2 : ∀ i, Small (s2 i))
    (hc : Small c) (i : Fin p.k) :
    Reps q 6283009
      (polyvecReduce (polyveckSub (polyveckDecompose p w).2 (polyMulVec (ntt c) (polyvecNtt s2))) i)
      (residues q ((polyveckDecompose p w).2 i) - mulRes c (s2 i)) := by
  have hlow : Reps q (2 ^ 18) ((polyveckDecompose p w).2 i) (residues q ((polyveckDecompose p w).2 i)) :=
    reps_residues fun n => by
      obtain ⟨-, -, hlo, hhi, -⟩ := decompose_spec (p := p) (hw i n).1 (hw i n).2
      have hg := (gamma2_range p).2
      exact ⟨by simp only [polyveckDecompose]; omega, by simp only [polyveckDecompose]; omega⟩
  exact polyReduce_rep (polySub_rep hlow (polyMulVec_rep hc hs2 i) (by decide)) (by decide)

/-- What passes `poly_chknorm` after a reduction. -/
theorem norm_of_rep {n : ℕ} {v : Fin n → Poly} {u : Fin n → Fin 256 → ZMod q} {bound : ℤ}
    (hb : bound ≤ (q - 1) / 8) (hv : ∀ i, Reps q 6283009 (v i) (u i)) (h : polyvecChknorm v bound = false)
    (i : Fin n) (j : Fin 256) : -bound < v i j ∧ v i j < bound := by
  refine (polyvecChknorm_eq_false hb fun i j => ?_).mp h i j
  have hlo := (hv i j).lo
  have hhi := (hv i j).hi
  omega

theorem bound_le (p : ParamSet) : p.gamma1 - p.beta ≤ (q - 1) / 8 ∧ p.gamma2 ≤ (q - 1) / 8 ∧
    p.gamma2 - p.beta ≤ (q - 1) / 8 := by
  cases p <;> decide

/-- With the hints, the verifier has the high parts that the signer had. -/
theorem HonestKey.useHint_recovers (hk : HonestKey x p fuel s mat t1) (hc : Small c)
    {w w0 ct0 : Fin p.k → Poly} (hy : ∀ j, Small (y j))
    (hw : w = polyveckCaddq (matVec mat (polyvecNtt y)))
    (hz : ∀ j, residues q (z j) = mulRes c (s.s1 j) + residues q (y j)) (hzs : ∀ j, Small (z j))
    (hw0 : w0 = polyvecReduce (polyveckSub (polyveckDecompose p w).2 (polyMulVec (ntt c) (polyvecNtt s.s2))))
    (hw0norm : polyvecChknorm w0 (p.gamma2 - p.beta) = false)
    (hct0 : ct0 = polyvecReduce (polyMulVec (ntt c) (polyvecNtt s.t0)))
    (hct0norm : polyvecChknorm ct0 p.gamma2 = false) :
    polyveckUseHint p (verifyW1 mat z c t1)
        (polyveckMakeHint p (polyvecAdd w0 ct0) (polyveckDecompose p w).1).1 =
      (polyveckDecompose p w).1 := by
  have hmat := polyvecMatrixExpand_range hk.mat_eq
  have hwspec := w_spec hmat hy
  rw [← hw] at hwspec
  have hw0rep := w0_rep (p := p) (fun i n => ⟨(hwspec i n).1, (hwspec i n).2.1⟩)
    (fun i => small_of_eta (hk.s2_range i)) hc
  have hct0rep := ct0_rep hk.t0_small hc
  rw [← hw0] at hw0rep
  rw [← hct0] at hct0rep
  funext i n
  obtain ⟨hv₀, hv, hvcast⟩ := verifyW1_spec (l_range p).1 (l_range p).2 hmat hzs hc hk.t1_range i n
  rw [verifier_value nttRes_invnttRes_smul hz (hk.t_eq i)] at hvcast
  obtain ⟨hc₀, hc₁, -, -, hsplit⟩ := decompose_spec (p := p) (hwspec i n).1 (hwspec i n).2.1
  have hn0 := norm_of_rep (bound_le p).2.2 hw0rep hw0norm i n
  have hn1 := norm_of_rep (bound_le p).2.1 hct0rep hct0norm i n
  have hβ := (gamma1_range p).2.1
  have hγ := gamma2_range p
  have hsum : polyvecAdd w0 ct0 i n = w0 i n + ct0 i n := int32_of_lt (by omega) (by omega)
  simp only [polyveckUseHint, polyveckMakeHint, polyveckDecompose]
  refine useHint_makeHint hc₀ hc₁ (by omega) (by omega) hv₀ hv ?_
  have hrow : rowRes (mat i) y n = (2 * p.gamma2 * (decompose p (w i n)).1 + (decompose p (w i n)).2 : ℤ) :=
    (hwspec i n).2.2.symm.trans hsplit
  have hlow : ((w0 i n : ℤ) : ZMod q) = ((decompose p (w i n)).2 : ℤ) - mulRes c (s.s2 i) n := (hw0rep i n).cast
  have hcct0 : ((ct0 i n : ℤ) : ZMod q) = mulRes c (s.t0 i) n := (hct0rep i n).cast
  calc ((verifyW1 mat z c t1 i n : ℤ) : ZMod q)
      = rowRes (mat i) y n - mulRes c (s.s2 i) n + mulRes c (s.t0 i) n := hvcast
    _ = (2 * p.gamma2 * (decompose p (w i n)).1 + polyvecAdd w0 ct0 i n : ℤ) := by
        rw [hrow, hsum]
        push_cast
        rw [hlow, hcct0]
        ring

/-- What a signer that holds an honest key signs is accepted. -/
theorem signInternal_verifies (hk : HonestKey x p fuel s mat t1) (hpk : pk = packPk p s.rho t1)
    (hsk : sk = packSk p s) (hsig : cryptoSignSignatureInternal x p fuel' m rnd sk = some sig) :
    cryptoSignVerifyInternal x p fuel' sig m pk = some 0 := by
  have htr : s.tr.length = 64 := by simp [hk.tr_eq, Xof.hash]
  have hunpack := unpackSk_pack hk.rho_length hk.key_length htr hk.s1_range hk.s2_range hk.t0_range
  rw [← hsk] at hunpack
  obtain ⟨mat', rhoprime, nonce, hmat', hround⟩ := signInternal_inv hunpack hsig
  obtain rfl := polyvecMatrixExpand_unique hk.mat_eq hmat'
  obtain ⟨y, z, w, w0, ct0, c, hy, hw, hc, hz, hznorm, hw0, hw0norm, hct0, hct0norm, hω, rfl⟩ :=
    signRound_inv hround
  have hg := gamma1_range p
  have hq := q_eq
  have hcs : Small c := .of_range (b := 1) (by decide) (polyChallenge_range hc)
  have hys : ∀ j, Small (y j) := fun j => .of_range (b := p.gamma1) (by omega) fun n =>
    ⟨(hy j n).1.le, (hy j n).2⟩
  have hzrep := z_rep (fun j => small_of_eta (hk.s1_range j)) hcs hy
  rw [← hz] at hzrep
  have hzlt := norm_of_rep (bound_le p).1 hzrep hznorm
  have hzs : ∀ j, Small (z j) := fun j => .of_range (b := p.gamma1) (by omega) fun n => by
    have := hzlt j n
    omega
  have hzpack : ∀ j n, -p.gamma1 < z j n ∧ z j n ≤ p.gamma1 := fun j n => by
    have := hzlt j n
    omega
  have h01 : ∀ i n, (polyveckMakeHint p (polyvecAdd w0 ct0) (polyveckDecompose p w).1).1 i n = 0 ∨
      (polyveckMakeHint p (polyvecAdd w0 ct0) (polyveckDecompose p w).1).1 i n = 1 :=
    fun i n => makeHint_zero_or_one p _ _
  have hclen : ∀ mu, (ctilde x p mu (polyveckDecompose p w).1).length = p.ctildebytes := by
    simp [ctilde, Xof.hash]
  have hw1 := hk.useHint_recovers hcs hys hw (fun j => (hzrep j).residues_eq) hzs hw0 hw0norm hct0 hct0norm
  simp only [cryptoSignVerifyInternal, length_packSig (hclen _) h01 hω, hpk,
    unpackPk_pack hk.rho_length hk.t1_range, unpackSig_pack (hclen _) hzpack h01 hω, hznorm]
  simp only [ne_eq, not_true, if_false, Bool.false_eq_true, Option.bind_eq_bind, hc, hmat', Option.bind_some,
    hw1, ← hk.tr_eq]

/-- **Signatures verify**: for the key pair of any seed and any random bytes of
the signer, and with the bound within which the signature was made. -/
theorem signed_verifies (hkey : cryptoSignKeypairInternal x p fuel coins = some (pk, sk))
    (hsig : cryptoSignSignature x p fuel' m ctx rnd sk = some (.ok sig)) :
    cryptoSignVerify x p fuel' sig m ctx pk = some 0 := by
  obtain ⟨s, mat, t1, hk, hpk, hsk⟩ := keypair_inv hkey
  unfold cryptoSignSignature at hsig
  split at hsig
  · simp at hsig
  · next hctx =>
    obtain ⟨sig', hint, hsig'⟩ := Option.map_eq_some_iff.mp hsig
    obtain rfl : sig' = sig := by simpa using hsig'
    rw [cryptoSignVerify, if_neg hctx]
    exact signInternal_verifies hk hpk hsk hint

end

/-! ## a run -/

section

variable {p : ParamSet} {c : Poly}

theorem rowRes_zero {l : ℕ} {row v : Fin l → Poly} (h : ∀ j n, row j n = 0) : rowRes row v = 0 := by
  have hrow : ∀ j, residues q (row j) = 0 := fun j => funext fun n => by simp [residues, h]
  simp [rowRes, rowHat, hrow]

theorem mulRes_zero {a : Poly} (h : ∀ n, a n = 0) : mulRes c a = 0 := by
  have ha : residues q a = 0 := funext fun n => by simp [residues, h]
  simp [mulRes, mulHat, ha]

/-- Words that are close to others with the same residues are these. -/
theorem eq_of_reps {a b : Poly} {u : Fin 256 → ZMod q} (ha : Reps q 6283009 a u)
    (hb : ∀ n, -2 ^ 20 ≤ b n ∧ b n ≤ 2 ^ 20) (hu : residues q b = u) : a = b := by
  funext n
  have hq := q_eq
  have hlo := (ha n).lo
  have hhi := (ha n).hi
  have hbn := hb n
  refine eq_of_cast_eq ((ha n).cast.trans (congrFun hu n).symm) ?_ ?_ <;> omega

theorem small_zero {a : Poly} (h : ∀ n, a n = 0) : Small a := fun n => by rw [h n]; decide

theorem chknorm_const {n : ℕ} {v bound : ℤ} (hb : bound ≤ (q - 1) / 8) (h : -bound < v ∧ v < bound) :
    polyvecChknorm (fun (_ : Fin n) (_ : Fin 256) => v) bound = false := by
  have hq := q_eq
  exact (polyvecChknorm_eq_false hb fun _ _ => by omega).mpr fun _ _ => h

variable {x : Xof} {fuel : ℕ} {mat : Fin p.k → Fin p.l → Poly} {v s1 : Fin p.l → Poly}
  {s2 t0 : Fin p.k → Poly}

/-- The product of a zero matrix with a vector. -/
theorem matVec_zero (hmat : ∀ i j n, mat i j n = 0) (hv : ∀ j, Small (v j)) (i : Fin p.k) :
    Reps q (q - 1) (matVec mat (polyvecNtt v) i) 0 := by
  have hrange : ∀ i j n, 0 ≤ mat i j n ∧ mat i j n < q := fun i j n => by
    rw [hmat]
    decide
  have hrep := matVec_rep (l_range p).1 (l_range p).2 hrange hv i
  rwa [rowRes_zero (hmat i)] at hrep

/-- A round of a signer whose matrix and secrets are zero. -/
theorem signRound_zero {nonce : ℕ} {v : ℤ} {mu rhoprime : Bytes} (hmat : ∀ i j n, mat i j n = 0)
    (hs1 : ∀ j n, s1 j n = 0) (hs2 : ∀ i n, s2 i n = 0) (ht0 : ∀ i n, t0 i n = 0)
    (hy : ∀ nonce n, polyUniformGamma1 x p rhoprime nonce n = v) (hv₀ : -(p.gamma1 - p.beta) < v)
    (hv : v < p.gamma1 - p.beta) (hc : polyChallenge x p fuel (ctilde x p mu fun _ _ => 0) = some c) :
    signRound x p fuel ⟨mat, polyvecNtt s1, polyvecNtt s2, polyvecNtt t0, mu, rhoprime⟩ nonce =
      some (some (packSig p (ctilde x p mu fun _ _ => 0) (fun _ _ => v) fun _ _ => 0)) := by
  have hq := q_eq
  have hg := gamma1_range p
  have hb := bound_le p
  have hcs : Small c := .of_range (b := 1) (by decide) (polyChallenge_range hc)
  have hyv : (fun (i : Fin p.l) => polyUniformGamma1 x p rhoprime (p.l * nonce + i)) = fun _ _ => v :=
    funext fun i => funext fun n => hy _ n
  have hys : Small fun _ => v := .of_range (b := p.gamma1) (by omega) fun _ => by omega
  have hw : polyveckCaddq (matVec mat (polyvecNtt fun _ _ => v)) = fun _ _ => 0 := by
    funext i n
    obtain ⟨hlo, hhi, hcast⟩ := polyCaddq_spec (matVec_zero hmat (fun _ => hys) i) n
    refine eq_of_cast_eq (q := q) ?_ (by simp only [polyveckCaddq]; omega) (by simp only [polyveckCaddq]; omega)
    exact hcast.trans (by simp)
  have hz : polyvecReduce (polyvecAdd (polyMulVec (ntt c) (polyvecNtt s1)) fun _ _ => v) = fun _ _ => v := by
    funext j
    have hrep := z_rep (p := p) (y := fun _ _ => v) (fun j => small_zero (hs1 j)) hcs (fun _ _ => by omega) j
    rw [mulRes_zero (hs1 j), zero_add] at hrep
    exact eq_of_reps hrep (fun _ => by omega) rfl
  have hdec : polyveckDecompose p (fun (_ : Fin p.k) _ => 0) = (fun _ _ => 0, fun _ _ => 0) := by
    have h0 : decompose p 0 = (0, 0) := by cases p <;> decide
    simp [polyveckDecompose, h0]
  have hw0 : polyvecReduce (polyveckSub (fun _ _ => 0) (polyMulVec (ntt c) (polyvecNtt s2))) = fun _ _ => 0 := by
    funext i
    have hrep := w0_rep (p := p) (w := fun _ _ => 0) (fun _ _ => by omega) (fun i => small_zero (hs2 i)) hcs i
    rw [hdec, mulRes_zero (hs2 i), sub_zero] at hrep
    exact eq_of_reps hrep (fun _ => by omega) rfl
  have hct0 : polyvecReduce (polyMulVec (ntt c) (polyvecNtt t0)) = fun _ _ => 0 := by
    funext i
    have hrep := ct0_rep (p := p) (fun i => small_zero (ht0 i)) hcs i
    rw [mulRes_zero (ht0 i)] at hrep
    exact eq_of_reps hrep (fun _ => by omega) (funext fun _ => by simp [residues])
  have hadd : polyvecAdd (fun (_ : Fin p.k) _ => 0) (fun _ _ => 0) = fun _ _ => 0 := by
    have h0 : int32 (0 + 0) = 0 := by decide
    exact funext fun _ => funext fun _ => h0
  have hhint : polyveckMakeHint p (fun (_ : Fin p.k) _ => 0) (fun _ _ => 0) = (fun _ _ => 0, 0) := by
    have h0 : makeHint p 0 0 = 0 := by cases p <;> decide
    simp [polyveckMakeHint, h0]
  have hω : ¬(p.omega : ℤ) < 0 := by omega
  simp only [signRound, hyv, hw, hdec, hc, Option.bind_eq_bind, Option.bind_some, hz,
    chknorm_const hb.1 ⟨hv₀, hv⟩, hw0, chknorm_const (n := p.k) hb.2.2 (v := 0) (by omega), hct0,
    chknorm_const (n := p.k) hb.2.1 (v := 0) (by omega), hadd, hhint, hω]
  simp

theorem signInternal_of_round {m rnd sk sig : Bytes} {s : SkParts p} (hsk : unpackSk p sk = s)
    (hmat : polyvecMatrixExpand x p (fuel + 1) s.rho = some mat)
    (hround : signRound x p (fuel + 1) ⟨mat, polyvecNtt s.s1, polyvecNtt s.s2, polyvecNtt s.t0,
      x.hash 64 (s.tr ++ m), x.hash 64 (s.key ++ rnd ++ x.hash 64 (s.tr ++ m))⟩ 0 = some (some sig)) :
    cryptoSignSignatureInternal x p (fuel + 1) m rnd sk = some sig := by
  simp only [cryptoSignSignatureInternal, hsk, hmat, Option.bind_eq_bind, Option.bind_some, repeatUntil,
    hround, Option.map_some]

/-- The public vector of a zero matrix and zero secrets. -/
theorem t_zero (hmat : ∀ i j n, mat i j n = 0) (hs1 : ∀ j n, s1 j n = 0) (hs2 : ∀ i n, s2 i n = 0) :
    polyveckCaddq (polyvecAdd (matVec mat (polyvecNtt s1)) s2) = fun _ _ => 0 := by
  funext i n
  have hrep := matVec_zero hmat (fun j => small_zero (hs1 j)) i n
  have hzero : matVec mat (polyvecNtt s1) i n = 0 := by
    have hlo := hrep.lo
    have hhi := hrep.hi
    exact eq_of_cast_eq (q := q) (hrep.cast.trans (by simp)) (by omega) (by omega)
  have h0 : caddq (int32 (0 + 0)) = 0 := by decide
  simp only [polyveckCaddq, polyCaddq, polyvecAdd, polyAdd, hzero, hs2, h0]

end

open ParamSet (mode65)

/-- A hash that gives a zero matrix and zero secrets for ML-DSA-65. -/
def fixedXof : Xof := .shake (fun _ _ => 0) fun _ _ => 0x44

theorem fixed_polyUniform (seed : Bytes) (nonce : ℕ) :
    ∃ a, polyUniform fixedXof 1 seed nonce = some a ∧ ∀ i, a i = 0 := by
  have hgroup : ∀ t ∈ rejUniform.group fun _ => 0, rejUniform.keep t = some 0 := by decide
  have hscan : (Uniform.start fixedXof (seedNonce seed nonce)).a.length = 256 ∧
      ∀ y ∈ (Uniform.start fixedXof (seedNonce seed nonce)).a, y = 0 :=
    Rejection.scan_const (g := 1) (m := 256) (fun _ => hgroup) (fun _ => rfl) (by decide) (by decide) (by decide)
  refine ⟨_, ?_, ofSamples_spec ⟨hscan.1.ge, hscan.2⟩⟩
  rw [polyUniform, Rejection.fill_of_full hscan.1]
  rfl

theorem fixed_polyUniformEta (seed : Bytes) (nonce : ℕ) :
    ∃ a, polyUniformEta fixedXof .mode65 1 seed nonce = some a ∧ ∀ i, a i = 0 := by
  have hgroup : ∀ t ∈ (rejEta .mode65).group fun _ => 0x44, (rejEta .mode65).keep t = some 0 := by decide
  obtain ⟨l, hl⟩ : ∃ l, (rejEta .mode65).scan 256 (fixedXof.squeeze256 (seedNonce seed nonce) 0 0 272) 272 272 0 [] =
    l := ⟨_, rfl⟩
  have hscan : l.length = 256 ∧ ∀ y ∈ l, y = 0 := by
    rw [← hl]
    exact Rejection.scan_const (g := 2) (m := 128) (fun _ => hgroup) (fun _ => rfl) (by decide) (by decide)
      (by decide)
  have hfull : ((0, l) : ℕ × List ℤ).2.length = 256 := hscan.1
  refine ⟨_, ?_, ofSamples_spec ⟨hscan.1.ge, hscan.2⟩⟩
  rw [polyUniformEta]
  simp only [etaBuflen, hl]
  rw [Rejection.fill_of_full hfull]
  rfl

theorem fixed_polyUniformGamma1 (seed : Bytes) (nonce : ℕ) (i : Fin 256) :
    polyUniformGamma1 fixedXof .mode65 seed nonce i = 244668 := by
  have hbyte : ∀ k < 680, byteAt ((List.range 680).map fun i =>
      UInt8.ofNat (fixedXof.squeeze256 (seedNonce seed nonce) 0 0 680 i)) k = 0x44 := by
    intro k hk
    rw [byteAt_range_map _ hk]
    rfl
  rw [polyUniformGamma1, polyzUnpack, unpackArray, unpack]
  simp only [zCodec, z20]
  rcases Nat.mod_two_eq_zero_or_one i with hi | hi
  · simp (disch := omega) only [hi, hbyte]
    decide
  · simp (disch := omega) only [hi, hbyte]
    decide

theorem fixed_polyChallenge (seed : Bytes) : ∃ c, polyChallenge fixedXof .mode65 1 seed = some c :=
  polyChallenge_returns fun _ _ => show 0x44 ≤ 207 by decide

theorem fixed_matrix (rho : Bytes) :
    ∃ mat, polyvecMatrixExpand fixedXof .mode65 1 rho = some mat ∧ ∀ i j n, mat i j n = 0 := by
  choose a ha hzero using fixed_polyUniform rho
  exact ⟨fun i j => a (i.val <<< 8 + j), collect_eq_some.mpr fun i => collect_eq_some.mpr fun j => ha _,
    fun i j => hzero _⟩

/-- The signer of a zero key signs in its first round. -/
theorem fixed_signs (m rnd : Bytes) {s : SkParts .mode65} {sk : Bytes} (hsk : unpackSk .mode65 sk = s)
    (hs1 : ∀ j n, s.s1 j n = 0) (hs2 : ∀ i n, s.s2 i n = 0) (ht0 : ∀ i n, s.t0 i n = 0) :
    ∃ sig, cryptoSignSignatureInternal fixedXof .mode65 1 m rnd sk = some sig := by
  obtain ⟨mat, hmat, hzero⟩ := fixed_matrix s.rho
  obtain ⟨c, hc⟩ := fixed_polyChallenge
    (ctilde fixedXof .mode65 (fixedXof.hash 64 (s.tr ++ m)) fun _ _ => 0)
  have hv : -(mode65.gamma1 - mode65.beta) < 244668 ∧
      244668 < mode65.gamma1 - mode65.beta := by decide
  exact ⟨_, signInternal_of_round hsk hmat
    (signRound_zero hzero hs1 hs2 ht0 (fixed_polyUniformGamma1 _) hv.1 hv.2 hc)⟩

theorem fixed_keypair (coins : Bytes) : ∃ pk sk s,
    cryptoSignKeypairInternal fixedXof .mode65 1 coins = some (pk, sk) ∧ unpackSk .mode65 sk = s ∧
      (∀ j n, s.s1 j n = 0) ∧ (∀ i n, s.s2 i n = 0) ∧ ∀ i n, s.t0 i n = 0 := by
  have hlen : (fixedXof.hash 128 (coins ++ [UInt8.ofNat mode65.k, UInt8.ofNat mode65.l])).length =
      128 := by simp [Xof.hash]
  obtain ⟨seedbuf, hseed⟩ : ∃ b, fixedXof.hash 128 (coins ++
    [UInt8.ofNat mode65.k, UInt8.ofNat mode65.l]) = b := ⟨_, rfl⟩
  rw [hseed] at hlen
  obtain ⟨mat, hmat, hzero⟩ := fixed_matrix (seedbuf.take 32)
  choose a ha haz using fixed_polyUniformEta ((seedbuf.drop 32).take 64)
  have ht := t_zero hzero (fun j : Fin mode65.l => haz j)
    fun i : Fin mode65.k => haz (mode65.l + i)
  have hround : polyveckPower2round (fun (_ : Fin mode65.k) _ => 0) = (fun _ _ => 0, fun _ _ => 0) := by
    have h0 : power2round 0 = (0, 0) := by decide
    simp only [polyveckPower2round, h0]
  have hkey : cryptoSignKeypairInternal fixedXof .mode65 1 coins =
      some (packPk .mode65 (seedbuf.take 32) fun _ _ => 0, packSk .mode65 ⟨seedbuf.take 32,
        fixedXof.hash 64 (packPk .mode65 (seedbuf.take 32) fun _ _ => 0), seedbuf.drop 96, fun _ _ => 0,
        fun j => a j, fun i => a (mode65.l + i)⟩) := by
    simp only [cryptoSignKeypairInternal, hseed, hmat, Option.bind_eq_bind, Option.bind_some,
      collect_eq_some.mpr fun j : Fin mode65.l => ha j,
      collect_eq_some.mpr fun i : Fin mode65.k => ha (mode65.l + i), ht, hround]
  refine ⟨_, _, _, hkey, unpackSk_pack (by simp [hlen]) (by simp [hlen]) (by simp [Xof.hash]) ?_ ?_ ?_,
    fun j => haz _, fun i => haz _, fun _ _ => rfl⟩
  · exact fun j n => by simp only [haz]; decide
  · exact fun i n => by simp only [haz]; decide
  · exact fun _ _ => show -2 ^ (d - 1) < (0 : ℤ) ∧ (0 : ℤ) ≤ 2 ^ (d - 1) by decide

/-- The theorem on a run of this hash, for a seed, a message and a context. -/
theorem signed_verifies_fixed : ∃ pk sk sig,
    cryptoSignKeypairInternal fixedXof .mode65 1 (List.replicate 32 7) = some (pk, sk) ∧
      cryptoSignSignature fixedXof .mode65 1 [1, 2, 3] [4] (List.replicate 32 5) sk = some (.ok sig) ∧
      cryptoSignVerify fixedXof .mode65 1 sig [1, 2, 3] [4] pk = some 0 := by
  obtain ⟨pk, sk, s, hkey, hsk, hs1, hs2, ht0⟩ := fixed_keypair (List.replicate 32 7)
  obtain ⟨sig, hsig⟩ := fixed_signs (mExtended [1, 2, 3] [4]) (List.replicate 32 5) hsk hs1 hs2 ht0
  have hsign : cryptoSignSignature fixedXof .mode65 1 [1, 2, 3] [4] (List.replicate 32 5) sk =
      some (.ok sig) := by
    rw [cryptoSignSignature, if_neg (by simp), hsig]
    rfl
  exact ⟨pk, sk, sig, hkey, hsign, signed_verifies hkey hsign⟩

end Tlcp.MlDsa
