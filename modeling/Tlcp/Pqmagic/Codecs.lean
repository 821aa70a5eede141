import Tlcp.Lib.BitPack

/-!
# Tlcp.Pqmagic.Codecs

The code of one group of every packer of Aigis-Enc, Aigis-Sig and ML-DSA: which
bytes the integers of a group go to and how they are read back.  The packers of
one width differ in the integers they make of the coefficients, not in the code
of a group, so that they share it.
-/

open BitPack

/-! ## Aigis-Enc -/

namespace Tlcp.AigisEnc

/-- Eight values of three bits, of `poly_compress` for `BITS_C2 == 3`. -/
def bits3 : Codec where
  g := 8
  m := 3
  bound := 2 ^ 3
  enc t := [t 0 ||| t 1 <<< 3 ||| t 2 <<< 6, t 2 >>> 2 ||| t 3 <<< 1 ||| t 4 <<< 4 ||| t 5 <<< 7,
    t 5 >>> 1 ||| t 6 <<< 2 ||| t 7 <<< 5]
  dec b
    | 0 => b 0 &&& 7
    | 1 => b 0 >>> 3 &&& 7
    | 2 => b 0 >>> 6 ||| (b 1 <<< 2 &&& 4)
    | 3 => b 1 >>> 1 &&& 7
    | 4 => b 1 >>> 4 &&& 7
    | 5 => b 1 >>> 7 ||| (b 2 <<< 1 &&& 6)
    | 6 => b 2 >>> 2 &&& 7
    | _ => b 2 >>> 5

/-- Two values of four bits, of `poly_compress` for `BITS_C2 == 4`. -/
def bits4 : Codec where
  g := 2
  m := 1
  bound := 2 ^ 4
  enc t := [t 0 ||| t 1 <<< 4]
  dec b
    | 0 => b 0 &&& 0xf
    | _ => b 0 >>> 4

/-- Eight values of five bits, of `poly_compress` for `BITS_C2 == 5`. -/
def bits5 : Codec where
  g := 8
  m := 5
  bound := 2 ^ 5
  enc t := [t 0 ||| t 1 <<< 5, t 1 >>> 3 ||| t 2 <<< 2 ||| t 3 <<< 7, t 3 >>> 1 ||| t 4 <<< 4,
    t 4 >>> 4 ||| t 5 <<< 1 ||| t 6 <<< 6, t 6 >>> 2 ||| t 7 <<< 3]
  dec b
    | 0 => b 0 &&& 0x1f
    | 1 => b 0 >>> 5 ||| (b 1 &&& 3) <<< 3
    | 2 => b 1 >>> 2 &&& 0x1f
    | 3 => b 1 >>> 7 ||| (b 2 &&& 0xf) <<< 1
    | 4 => b 2 >>> 4 ||| (b 3 &&& 0x1) <<< 4
    | 5 => b 3 >>> 1 &&& 0x1f
    | 6 => b 3 >>> 6 ||| (b 4 &&& 0x7) <<< 2
    | _ => b 4 >>> 3

/-- Eight values of nine bits, of `polyvec_compress9`. -/
def bits9 : Codec where
  g := 8
  m := 9
  bound := 2 ^ 9
  enc t := [t 0 &&& 0xff, t 0 >>> 8 ||| (t 1 &&& 0x7f) <<< 1, t 1 >>> 7 ||| (t 2 &&& 0x3f) <<< 2,
    t 2 >>> 6 ||| (t 3 &&& 0x1f) <<< 3, t 3 >>> 5 ||| (t 4 &&& 0x0f) <<< 4,
    t 4 >>> 4 ||| (t 5 &&& 0x07) <<< 5, t 5 >>> 3 ||| (t 6 &&& 0x03) <<< 6,
    t 6 >>> 2 ||| (t 7 &&& 0x01) <<< 7, t 7 >>> 1]
  dec b
    | 0 => b 0 ||| (b 1 &&& 0x01) <<< 8
    | 1 => b 1 >>> 1 ||| (b 2 &&& 0x03) <<< 7
    | 2 => b 2 >>> 2 ||| (b 3 &&& 0x07) <<< 6
    | 3 => b 3 >>> 3 ||| (b 4 &&& 0x0f) <<< 5
    | 4 => b 4 >>> 4 ||| (b 5 &&& 0x1f) <<< 4
    | 5 => b 5 >>> 5 ||| (b 6 &&& 0x3f) <<< 3
    | 6 => b 6 >>> 6 ||| (b 7 &&& 0x7f) <<< 2
    | _ => b 7 >>> 7 ||| b 8 <<< 1

/-- Four values of ten bits, of `polyvec_compress10`. -/
def bits10 : Codec where
  g := 4
  m := 5
  bound := 2 ^ 10
  enc t := [t 0 &&& 0xff, t 0 >>> 8 ||| (t 1 &&& 0x3f) <<< 2, t 1 >>> 6 ||| (t 2 &&& 0x0f) <<< 4,
    t 2 >>> 4 ||| (t 3 &&& 0x03) <<< 6, t 3 >>> 2]
  dec b
    | 0 => b 0 ||| (b 1 &&& 0x03) <<< 8
    | 1 => b 1 >>> 2 ||| (b 2 &&& 0x0f) <<< 6
    | 2 => b 2 >>> 4 ||| (b 3 &&& 0x3f) <<< 4
    | _ => b 3 >>> 6 ||| b 4 <<< 2

/-- Eight values of eleven bits, of `polyvec_compress11`. -/
def bits11 : Codec where
  g := 8
  m := 11
  bound := 2 ^ 11
  enc t := [t 0 &&& 0xff, t 0 >>> 8 ||| (t 1 &&& 0x1f) <<< 3, t 1 >>> 5 ||| (t 2 &&& 0x03) <<< 6,
    t 2 >>> 2 &&& 0xff, t 2 >>> 10 ||| (t 3 &&& 0x7f) <<< 1, t 3 >>> 7 ||| (t 4 &&& 0x0f) <<< 4,
    t 4 >>> 4 ||| (t 5 &&& 0x01) <<< 7, t 5 >>> 1 &&& 0xff, t 5 >>> 9 ||| (t 6 &&& 0x3f) <<< 2,
    t 6 >>> 6 ||| (t 7 &&& 0x07) <<< 5, t 7 >>> 3]
  dec b
    | 0 => b 0 ||| (b 1 &&& 0x07) <<< 8
    | 1 => b 1 >>> 3 ||| (b 2 &&& 0x3f) <<< 5
    | 2 => b 2 >>> 6 ||| (b 3 &&& 0xff) <<< 2 ||| (b 4 &&& 0x01) <<< 10
    | 3 => b 4 >>> 1 ||| (b 5 &&& 0x0f) <<< 7
    | 4 => b 5 >>> 4 ||| (b 6 &&& 0x7f) <<< 4
    | 5 => b 6 >>> 7 ||| (b 7 &&& 0xff) <<< 1 ||| (b 8 &&& 0x03) <<< 9
    | 6 => b 8 >>> 2 ||| (b 9 &&& 0x1f) <<< 6
    | _ => b 9 >>> 5 ||| (b 10 &&& 0xff) <<< 3

/-- Eight values of thirteen bits, of `poly_tobytes`. -/
def bits13 : Codec where
  g := 8
  m := 13
  bound := 2 ^ 13
  enc t := [t 0 &&& 0xff, t 0 >>> 8 ||| (t 1 &&& 0x07) <<< 5, t 1 >>> 3 &&& 0xff,
    t 1 >>> 11 ||| (t 2 &&& 0x3f) <<< 2, t 2 >>> 6 ||| (t 3 &&& 0x01) <<< 7, t 3 >>> 1 &&& 0xff,
    t 3 >>> 9 ||| (t 4 &&& 0x0f) <<< 4, t 4 >>> 4 &&& 0xff, t 4 >>> 12 ||| (t 5 &&& 0x7f) <<< 1,
    t 5 >>> 7 ||| (t 6 &&& 0x03) <<< 6, t 6 >>> 2 &&& 0xff, t 6 >>> 10 ||| (t 7 &&& 0x1f) <<< 3,
    t 7 >>> 5]
  dec b
    | 0 => b 0 ||| (b 1 &&& 0x1f) <<< 8
    | 1 => b 1 >>> 5 ||| b 2 <<< 3 ||| (b 3 &&& 0x03) <<< 11
    | 2 => b 3 >>> 2 ||| (b 4 &&& 0x7f) <<< 6
    | 3 => b 4 >>> 7 ||| b 5 <<< 1 ||| (b 6 &&& 0x0f) <<< 9
    | 4 => b 6 >>> 4 ||| b 7 <<< 4 ||| (b 8 &&& 0x01) <<< 12
    | 5 => b 8 >>> 1 ||| (b 9 &&& 0x3f) <<< 7
    | 6 => b 9 >>> 6 ||| b 10 <<< 2 ||| (b 11 &&& 0x07) <<< 10
    | _ => b 11 >>> 3 ||| b 12 <<< 5

end Tlcp.AigisEnc

/-! ## Aigis-Sig -/

namespace Tlcp.AigisSig

/-- Four values of two bits, for `ETA1 == 1`. -/
def bits2 : Codec where
  g := 4
  m := 1
  bound := 4
  enc t := [t 0 ||| t 1 <<< 2 ||| t 2 <<< 4 ||| t 3 <<< 6]
  dec b
    | 0 => b 0 &&& 0x03
    | 1 => b 0 >>> 2 &&& 0x03
    | 2 => b 0 >>> 4 &&& 0x03
    | _ => b 0 >>> 6 &&& 0x03

/-- Eight values of three bits, for the other small `ETA1` and `ETA2`. -/
def bits3 : Codec where
  g := 8
  m := 3
  bound := 8
  enc t := [t 0 ||| t 1 <<< 3 ||| t 2 <<< 6, t 2 >>> 2 ||| t 3 <<< 1 ||| t 4 <<< 4 ||| t 5 <<< 7,
    t 5 >>> 1 ||| t 6 <<< 2 ||| t 7 <<< 5]
  dec b
    | 0 => b 0 &&& 0x07
    | 1 => b 0 >>> 3 &&& 0x07
    | 2 => b 0 >>> 6 ||| (b 1 &&& 0x01) <<< 2
    | 3 => b 1 >>> 1 &&& 0x07
    | 4 => b 1 >>> 4 &&& 0x07
    | 5 => b 1 >>> 7 ||| (b 2 &&& 0x03) <<< 1
    | 6 => b 2 >>> 2 &&& 0x07
    | _ => b 2 >>> 5

/-- Two values of four bits, for `ETA2 > 3`. -/
def bits4 : Codec where
  g := 2
  m := 1
  bound := 16
  enc t := [t 0 ||| t 1 <<< 4]
  dec b
    | 0 => b 0 &&& 0x0F
    | _ => b 0 >>> 4

/-- One value a byte, of `polyt1_pack`. -/
def bits8 : Codec where
  g := 1
  m := 1
  bound := 256
  enc t := [t 0]
  dec b _ := b 0

/-- Eight values of thirteen bits, of `polyt0_pack` for `PARAM_D == 13`. -/
def bits13 : Codec where
  g := 8
  m := 13
  bound := 2 ^ 13
  enc t := [t 0, t 0 >>> 8 ||| t 1 <<< 5, t 1 >>> 3, t 1 >>> 11 ||| t 2 <<< 2,
    t 2 >>> 6 ||| t 3 <<< 7, t 3 >>> 1, t 3 >>> 9 ||| t 4 <<< 4, t 4 >>> 4,
    t 4 >>> 12 ||| t 5 <<< 1, t 5 >>> 7 ||| t 6 <<< 6, t 6 >>> 2, t 6 >>> 10 ||| t 7 <<< 3,
    t 7 >>> 5]
  dec b
    | 0 => b 0 ||| (b 1 &&& 0x1F) <<< 8
    | 1 => b 1 >>> 5 ||| b 2 <<< 3 ||| (b 3 &&& 0x3) <<< 11
    | 2 => b 3 >>> 2 ||| (b 4 &&& 0x7F) <<< 6
    | 3 => b 4 >>> 7 ||| b 5 <<< 1 ||| (b 6 &&& 0x0F) <<< 9
    | 4 => b 6 >>> 4 ||| b 7 <<< 4 ||| (b 8 &&& 0x01) <<< 12
    | 5 => b 8 >>> 1 ||| (b 9 &&& 0x3F) <<< 7
    | 6 => b 9 >>> 6 ||| b 10 <<< 2 ||| (b 11 &&& 0x07) <<< 10
    | _ => b 11 >>> 3 ||| b 12 <<< 5

/-- Four values of fourteen bits, of `polyt0_pack` for `PARAM_D == 14`. -/
def bits14 : Codec where
  g := 4
  m := 7
  bound := 2 ^ 14
  enc t := [t 0, t 0 >>> 8 ||| t 1 <<< 6, t 1 >>> 2, t 1 >>> 10 ||| t 2 <<< 4, t 2 >>> 4,
    t 2 >>> 12 ||| t 3 <<< 2, t 3 >>> 6]
  dec b
    | 0 => b 0 ||| (b 1 &&& 0x3F) <<< 8
    | 1 => b 1 >>> 6 ||| b 2 <<< 2 ||| (b 3 &&& 0x0F) <<< 10
    | 2 => b 3 >>> 4 ||| b 4 <<< 4 ||| (b 5 &&& 0x03) <<< 12
    | _ => b 5 >>> 2 ||| b 6 <<< 6

/-- Four values of eighteen bits, of `polyz_pack`. -/
def bits18 : Codec where
  g := 4
  m := 9
  bound := 2 ^ 18
  enc t := [t 0, t 0 >>> 8, t 0 >>> 16 ||| t 1 <<< 2, t 1 >>> 6, t 1 >>> 14 ||| t 2 <<< 4, t 2 >>> 4,
    t 2 >>> 12 ||| t 3 <<< 6, t 3 >>> 2, t 3 >>> 10]
  dec b
    | 0 => b 0 ||| b 1 <<< 8 ||| (b 2 &&& 0x03) <<< 16
    | 1 => b 2 >>> 2 ||| b 3 <<< 6 ||| (b 4 &&& 0x0F) <<< 14
    | 2 => b 4 >>> 4 ||| b 5 <<< 4 ||| (b 6 &&& 0x3F) <<< 12
    | _ => b 6 >>> 6 ||| b 7 <<< 2 ||| b 8 <<< 10

/-- Every nine bytes are four values of eighteen bits. -/
theorem bits18_tight : bits18.Tight := by
  refine bits18.tight (by decide) fun t t' h => ?_
  simp only [bits18, Nat.forall_lt_succ_right] at h ⊢
  simp only [h]

end Tlcp.AigisSig

/-! ## ML-DSA -/

namespace Tlcp.MlDsa

/-- Eight values of three bits, of `polyeta_pack` for `ETA == 2`. -/
def eta3 : Codec where
  g := 8
  m := 3
  bound := 8
  enc t := [t 0 >>> 0 ||| t 1 <<< 3 ||| t 2 <<< 6,
    t 2 >>> 2 ||| t 3 <<< 1 ||| t 4 <<< 4 ||| t 5 <<< 7,
    t 5 >>> 1 ||| t 6 <<< 2 ||| t 7 <<< 5]
  dec b
    | 0 => b 0 >>> 0 &&& 7
    | 1 => b 0 >>> 3 &&& 7
    | 2 => (b 0 >>> 6 ||| b 1 <<< 2) &&& 7
    | 3 => b 1 >>> 1 &&& 7
    | 4 => b 1 >>> 4 &&& 7
    | 5 => (b 1 >>> 7 ||| b 2 <<< 1) &&& 7
    | 6 => b 2 >>> 2 &&& 7
    | _ => b 2 >>> 5 &&& 7

/-- Two values of four bits, of `polyeta_pack` for `ETA == 4`. -/
def eta4 : Codec where
  g := 2
  m := 1
  bound := 16
  enc t := [t 0 ||| t 1 <<< 4]
  dec b
    | 0 => b 0 &&& 0x0F
    | _ => b 0 >>> 4

/-- Four values of ten bits, of `polyt1_pack`. -/
def t1Bits : Codec where
  g := 4
  m := 5
  bound := 2 ^ 10
  enc t := [t 0 >>> 0, t 0 >>> 8 ||| t 1 <<< 2, t 1 >>> 6 ||| t 2 <<< 4, t 2 >>> 4 ||| t 3 <<< 6,
    t 3 >>> 2]
  dec b
    | 0 => (b 0 >>> 0 ||| b 1 <<< 8) &&& 0x3FF
    | 1 => (b 1 >>> 2 ||| b 2 <<< 6) &&& 0x3FF
    | 2 => (b 2 >>> 4 ||| b 3 <<< 4) &&& 0x3FF
    | _ => (b 3 >>> 6 ||| b 4 <<< 2) &&& 0x3FF

/-- Eight values of thirteen bits, of `polyt0_pack`. -/
def t0Bits : Codec where
  g := 8
  m := 13
  bound := 2 ^ 13
  enc t := [t 0, t 0 >>> 8 ||| t 1 <<< 5, t 1 >>> 3, t 1 >>> 11 ||| t 2 <<< 2,
    t 2 >>> 6 ||| t 3 <<< 7, t 3 >>> 1, t 3 >>> 9 ||| t 4 <<< 4, t 4 >>> 4,
    t 4 >>> 12 ||| t 5 <<< 1, t 5 >>> 7 ||| t 6 <<< 6, t 6 >>> 2, t 6 >>> 10 ||| t 7 <<< 3,
    t 7 >>> 5]
  dec b
    | 0 => (b 0 ||| b 1 <<< 8) &&& 0x1FFF
    | 1 => (b 1 >>> 5 ||| b 2 <<< 3 ||| b 3 <<< 11) &&& 0x1FFF
    | 2 => (b 3 >>> 2 ||| b 4 <<< 6) &&& 0x1FFF
    | 3 => (b 4 >>> 7 ||| b 5 <<< 1 ||| b 6 <<< 9) &&& 0x1FFF
    | 4 => (b 6 >>> 4 ||| b 7 <<< 4 ||| b 8 <<< 12) &&& 0x1FFF
    | 5 => (b 8 >>> 1 ||| b 9 <<< 7) &&& 0x1FFF
    | 6 => (b 9 >>> 6 ||| b 10 <<< 2 ||| b 11 <<< 10) &&& 0x1FFF
    | _ => (b 11 >>> 3 ||| b 12 <<< 5) &&& 0x1FFF

/-- Four values of eighteen bits, of `polyz_pack` for `GAMMA1 == (1 << 17)`. -/
def z18 : Codec where
  g := 4
  m := 9
  bound := 2 ^ 18
  enc t := [t 0, t 0 >>> 8, t 0 >>> 16 ||| t 1 <<< 2, t 1 >>> 6, t 1 >>> 14 ||| t 2 <<< 4, t 2 >>> 4,
    t 2 >>> 12 ||| t 3 <<< 6, t 3 >>> 2, t 3 >>> 10]
  dec b
    | 0 => (b 0 ||| b 1 <<< 8 ||| b 2 <<< 16) &&& 0x3FFFF
    | 1 => (b 2 >>> 2 ||| b 3 <<< 6 ||| b 4 <<< 14) &&& 0x3FFFF
    | 2 => (b 4 >>> 4 ||| b 5 <<< 4 ||| b 6 <<< 12) &&& 0x3FFFF
    | _ => (b 6 >>> 6 ||| b 7 <<< 2 ||| b 8 <<< 10) &&& 0x3FFFF

theorem z18_tight : z18.Tight := by
  refine z18.tight (by decide) fun t t' h => ?_
  simp only [z18, Nat.forall_lt_succ_right] at h ⊢
  simp only [h]

/-- Two values of twenty bits, of `polyz_pack` for `GAMMA1 == (1 << 19)`.  The
mask is applied to the first value twice and to the second not at all, which
has no more than twenty bits. -/
def z20 : Codec where
  g := 2
  m := 5
  bound := 2 ^ 20
  enc t := [t 0, t 0 >>> 8, t 0 >>> 16 ||| t 1 <<< 4, t 1 >>> 4, t 1 >>> 12]
  dec b
    | 0 => (b 0 ||| b 1 <<< 8 ||| b 2 <<< 16) &&& 0xFFFFF &&& 0xFFFFF
    | _ => b 2 >>> 4 ||| b 3 <<< 4 ||| b 4 <<< 12

theorem z20_tight : z20.Tight := by
  refine z20.tight (by decide) fun t t' h => ?_
  simp only [z20, Nat.forall_lt_succ_right] at h ⊢
  simp only [h]

end Tlcp.MlDsa
