import Tlcp.Provider.Asn1
import Tlcp.Provider.Key

/-!
# Tlcp.Provider.Decoder

The decoders of the pqmagic provider: `SubjectPublicKeyInfo` and PKCS#8.

`spki_dec_decode` reads the outer header by hand and leaves the rest to the BER
reader of libcrypto.  It looks neither at the class of the outer tag nor at what
lies behind the bit string or behind the outer sequence, it ignores the
parameters of the algorithm, and it drops a zero byte in front of the key.

* `spkiDecDecode_encoding` : the DER encoding of a key is accepted;
* `spki_unique_iff` : which of the strings that decode to a key are equal to it.
-/

namespace Tlcp.Provider

open Octets

variable {a : Alg} {pk p der : Bytes} {selection : ℕ}

/-! ## object identifiers -/

/-- The arcs of an object identifier, the first two still in one number. -/
def subidentifiers (l : ℕ) : Bytes → Option (List ℕ)
  | [] => some []
  | c :: p =>
    let l := l <<< 7 ||| (c &&& 0x7f).toNat
    if c &&& 0x80 = 0 then (subidentifiers 0 p).map (l :: ·)
    else if p = [] then none
    else subidentifiers l p

/-- `OBJ_obj2txt` with `no_name` set. -/
def objObj2txt (cont : Bytes) : Option (List ℕ) := if 586 < cont.length then none
  else
    match subidentifiers 0 cont with
    | some (l :: ls) => some (if 80 ≤ l then 2 :: (l - 80) :: ls else l / 40 :: l % 40 :: ls)
    | _ => none

/-- The content of the identifier, which `OBJ_txt2obj` makes of its text. -/
def Alg.content : Alg → Bytes
  | mldsa44 => [0x2a, 0x81, 0x1c, 0xcf, 0x55, 0x01, 0x82, 0x30, 0x01]
  | mlkem512 => [0x2a, 0x81, 0x1c, 0xcf, 0x55, 0x01, 0x82, 0x2f, 0x01]

theorem objObj2txt_content (a : Alg) : objObj2txt a.content = some a.oid := by
  cases a <;> decide

/-! ## SubjectPublicKeyInfo -/

/-- `parse_spki_oid_and_bits`: the content of the identifier and the bytes of the
bit string. -/
def parseSpkiOidAndBits (der : Bytes) : Option (Bytes × Bytes) := match asn1GetObject der with
  | none => none
  | some (h, p) =>
    if h.tag ≠ 16 then none
    else
      match d2iX509Algor (p.take h.plen) with
      | none => none
      | some (oid, q) =>
        match d2iBitString q with
        | none => none
        | some (bits, _) => if bits = [] then none else some (oid, bits)

/-- The algorithm of an identifier, by `OBJ_cmp`. -/
def Alg.ofContent (cont : Bytes) : Option Alg := if cont = mldsa44.content then some mldsa44
  else if cont = mlkem512.content then some mlkem512
  else none

/-- The key in the bit string; a zero byte in front of it is dropped. -/
def Alg.keyBits (a : Alg) (bits : Bytes) : Bytes :=
  if bits.length = a.pkLen + 1 ∧ bits.head? = some 0 then bits.tail else bits

/-- `spki_dec_decode`: the key object that is handed to the callback. -/
def spkiDecDecode (selection : ℕ) (der : Bytes) : Option RawKey :=
  if selection ≠ 0 ∧ ¬Selects selection selectPublicKey then none
  else
    match parseSpkiOidAndBits der with
    | none => none
    | some (oid, bits) =>
      match Alg.ofContent oid with
      | none => none
      | some a =>
        if (a.keyBits bits).length ≠ a.pkLen then none
        else
          match objObj2txt oid with
          | none => none
          | some text =>
            some { pqmagicKmNew with pk := pqmagicKmNew.pk.write 0 (a.keyBits bits),
                                     pkLen := a.pkLen, oidText := text }

/-! ## PKCS#8 -/

/-- `pkcs8_dec_decode`: the key object that is handed to the callback.
`d2iPkcs8PrivKeyInfo` stands for the function of that name with
`PKCS8_pkey_get0`: the content of the identifier and the bytes of the key. -/
def pkcs8DecDecode (d2iPkcs8PrivKeyInfo : Bytes → Option (Bytes × Bytes)) (selection : ℕ)
    (der : Bytes) : Option RawKey :=
  if selection ≠ 0 ∧ ¬Selects selection selectPrivateKey then none
  else if der = [] then none
  else
    match d2iPkcs8PrivKeyInfo der with
    | none => none
    | some (algoid, pkey) =>
      match objObj2txt algoid with
      | none => none
      | some text =>
        if text = Alg.mlkem512.oid then
          if pkey.length ≠ Alg.mlkem512.skLen then none
          else some { pqmagicKmNew with sk := pqmagicKmNew.sk.write 0 pkey, skLen := pkey.length,
                                        oidText := Alg.mlkem512.oid }
        else if text = Alg.mldsa44.oid then
          if pkey.length ≠ Alg.mldsa44.skLen then none
          else some { pqmagicKmNew with sk := pqmagicKmNew.sk.write 0 pkey, skLen := pkey.length,
                                        oidText := Alg.mldsa44.oid }
        else none

/-! ## reading back an encoding -/

/-- A length of two bytes. -/
theorem asn1GetLength_two {hi lo : UInt8} (hhi : hi ≠ 0) (hp : p ≠ []) :
    asn1GetLength (0x82 :: hi :: lo :: p) = some (false, hi.toNat * 256 + lo.toNat, p) := by
  have hpos := List.length_pos_iff.mpr hp
  have hhi' := hi.toNat_lt
  have hlo' := lo.toNat_lt
  have hdig : List.dropWhile (· == 0) [hi, lo] = [hi, lo] :=
    List.dropWhile_cons_of_neg (by simpa using hhi)
  have hval : ofUint [hi, lo] = hi.toNat * 256 + lo.toNat := by simp [ofUint]
  have htwo : ((0x82 : UInt8) &&& 0x7f).toNat = 2 := by decide
  simp only [asn1GetLength, htwo, List.take_succ_cons, List.take_zero, hdig, hval]
  rw [if_neg (by decide), if_neg (by decide), if_neg (by simp; omega), if_neg (by simp; omega)]
  rfl

/-- A header with a short tag and a length that is there. -/
theorem asn1GetObject_of_length {b : UInt8} {q : Bytes} {plen : ℕ} (hb : b &&& 0x1f ≠ 0x1f)
    (hlen : asn1GetLength p = some (false, plen, q)) (hq : plen ≤ q.length) :
    asn1GetObject (b :: p) =
      some (⟨b &&& 0x20 ≠ 0, (b &&& 0xc0).toNat, (b &&& 0x1f).toNat, false, plen⟩, q) := by
  have hp : p ≠ [] := by
    rintro rfl
    contradiction
  simp [asn1GetObject, hp, hb, hlen, hq]

/-- The same for the type that is asked for. -/
theorem asn1CheckTlen_of_length {b : UInt8} {q : Bytes} {plen n : ℕ} (hb : b &&& 0x1f ≠ 0x1f)
    (htag : (b &&& 0x1f).toNat = n) (hclass : (b &&& 0xc0).toNat = universal)
    (hlen : asn1GetLength p = some (false, plen, q)) (hq : plen ≤ q.length) :
    asn1CheckTlen (UType.expected (.tag n)) (b :: p) =
      some (⟨b &&& 0x20 ≠ 0, universal, n, false, plen⟩, q) := by
  simp [asn1CheckTlen, asn1GetObject_of_length hb hlen hq, UType.expected, htag, hclass]

/-- A bit string without unused bits. -/
theorem c2iBitString_zero (d : Bytes) : c2iBitString (0 :: d) = some d := by
  have hmask : ((0xff : UInt8) <<< 0) = 0xff := by decide
  have hand (b : UInt8) : b &&& 0xff = b := by
    refine UInt8.toNat_inj.mp ?_
    rw [UInt8.toNat_and]
    exact Nat.and_two_pow_sub_one_of_lt_two_pow b.toNat_lt
  simp only [c2iBitString, hmask, hand, Option.map_id']
  rw [if_neg (by decide)]
  rcases List.eq_nil_or_concat d with rfl | ⟨l, b, rfl⟩
  · rfl
  · simp

theorem d2iBitString_two {hi lo : UInt8} {d : Bytes} (rest : Bytes) (hhi : hi ≠ 0)
    (hd : d.length + 1 = hi.toNat * 256 + lo.toNat) :
    d2iBitString (0x03 :: 0x82 :: hi :: lo :: 0x00 :: (d ++ rest)) = some (d, rest) := by
  have hlen : asn1GetLength (0x82 :: hi :: lo :: 0x00 :: (d ++ rest)) =
      some (false, d.length + 1, 0x00 :: (d ++ rest)) := by
    rw [hd]
    exact asn1GetLength_two hhi (by simp)
  have htlen : asn1CheckTlen (UType.expected .bitString)
        (0x03 :: 0x82 :: hi :: lo :: 0x00 :: (d ++ rest)) =
      some (⟨false, universal, 3, false, d.length + 1⟩, 0x00 :: (d ++ rest)) :=
    asn1CheckTlen_of_length (by decide) (by decide) (by decide) hlen (by simp)
  have hcont : primitiveContent .bitString (0x03 :: 0x82 :: hi :: lo :: 0x00 :: (d ++ rest)) =
      some (0x00 :: d, rest) := by
    rw [primitiveContent, htlen]
    simp only [Bool.false_eq_true, if_false, List.take_succ_cons, List.drop_succ_cons,
      List.take_left, List.drop_left]
    exact if_neg (by decide)
  simp [d2iBitString, hcont, c2iBitString_zero]

/-- An algorithm identifier without parameters. -/
theorem d2iX509Algor_content (a : Alg) (rest : Bytes) :
    d2iX509Algor (0x30 :: 0x0b :: 0x06 :: 0x09 :: (a.content ++ rest)) = some (a.content, rest) := by
  have hfields : algorFields false (0x06 :: 0x09 :: a.content) = some (a.content, []) := by
    cases a <;> decide
  have hclen : a.content.length = 9 := by cases a <;> rfl
  have htlen : asn1CheckTlen (UType.expected .sequence)
        (0x30 :: 0x0b :: 0x06 :: 0x09 :: (a.content ++ rest)) =
      some (⟨true, universal, 16, false, 11⟩, 0x06 :: 0x09 :: (a.content ++ rest)) :=
    asn1CheckTlen_of_length (by decide) (by decide) (by decide) rfl (by simp [hclen])
  have htake : (0x06 :: 0x09 :: (a.content ++ rest)).take 11 = 0x06 :: 0x09 :: a.content := by
    simp [hclen]
  have hdrop : (0x06 :: 0x09 :: (a.content ++ rest)).drop 11 = rest := by
    simp [hclen]
  simp [d2iX509Algor, htlen, htake, hdrop, hfields]


/-! ## the encodings of a key -/

/-- What stands in front of the key in its DER encoding: the headers of the
sequence and of the algorithm identifier, the identifier, and the header of a bit
string without unused bits. -/
def Alg.spkiHeader (a : Alg) : Bytes :=
  [0x30, 0x82] ++ putUint 2 (a.pkLen + 18) ++ [0x30, 0x0b, 0x06, 0x09] ++ a.content ++
    [0x03, 0x82] ++ putUint 2 (a.pkLen + 1) ++ [0x00]

theorem length_spkiHeader (a : Alg) : a.spkiHeader.length = 22 := by
  cases a <;> rfl

theorem parseSpki_header (rest : Bytes) (hpk : pk.length = a.pkLen) :
    parseSpkiOidAndBits (a.spkiHeader ++ pk ++ rest) = some (a.content, pk) := by
  obtain ⟨hi, lo, hput, hhi, hval⟩ : ∃ hi lo : UInt8,
      putUint 2 (a.pkLen + 18) = [hi, lo] ∧ hi ≠ 0 ∧ hi.toNat * 256 + lo.toNat = a.pkLen + 18 := by
    cases a <;> exact ⟨_, _, rfl, by decide, by decide⟩
  obtain ⟨hi', lo', hput', hhi', hval'⟩ : ∃ hi lo : UInt8,
      putUint 2 (a.pkLen + 1) = [hi, lo] ∧ hi ≠ 0 ∧ hi.toNat * 256 + lo.toNat = a.pkLen + 1 := by
    cases a <;> exact ⟨_, _, rfl, by decide, by decide⟩
  have hclen : a.content.length = 9 := by cases a <;> rfl
  have hpos : pk ≠ [] := by
    rintro rfl
    cases a <;> contradiction
  -- the window of the sequence, and what lies behind it
  obtain ⟨w, hw⟩ : ∃ w, w = 0x30 :: 0x0b :: 0x06 :: 0x09 :: (a.content ++
    (0x03 :: 0x82 :: hi' :: lo' :: 0x00 :: (pk ++ []))) := ⟨_, rfl⟩
  have hwlen : w.length = a.pkLen + 18 := by
    rw [hw]
    simp [hclen, hpk]
    omega
  have hder : a.spkiHeader ++ pk ++ rest = 0x30 :: 0x82 :: hi :: lo :: (w ++ rest) := by
    rw [hw, Alg.spkiHeader, hput, hput']
    simp
  have hobj : asn1GetObject (a.spkiHeader ++ pk ++ rest) =
      some (⟨true, universal, 16, false, a.pkLen + 18⟩, w ++ rest) := by
    rw [hder, ← hval]
    refine asn1GetObject_of_length (by decide) (asn1GetLength_two hhi (by simp [hw])) ?_
    rw [List.length_append]
    omega
  have hbits := d2iBitString_two [] hhi' (by rw [hpk, hval'])
  rw [parseSpkiOidAndBits, hobj]
  simp only [← hwlen, List.take_left]
  rw [hw, d2iX509Algor_content, if_neg (by simp)]
  simp only [hbits]
  rw [if_neg hpos]

/-- The object that the decoder makes of a public key. -/
def spkiKey (a : Alg) (pk : Bytes) : RawKey :=
  { pqmagicKmNew with pk := pqmagicKmNew.pk.write 0 pk, pkLen := a.pkLen, oidText := a.oid }

theorem Alg.pkLen_le (a : Alg) : a.pkLen ≤ 1312 := by
  cases a <;> decide

theorem spkiKey_inj {b : Alg} {qk : Bytes} (hpk : pk.length = a.pkLen)
    (hqk : qk.length = b.pkLen) (h : spkiKey a pk = spkiKey b qk) : a = b ∧ pk = qk := by
  have hoid : a.oid = b.oid := congrArg KeyObject.oidText h
  have hab : a = b := by
    cases a <;> cases b <;> first | rfl | exact absurd hoid (by decide)
  subst hab
  have hle := a.pkLen_le
  have hbuf : pqmagicKmNew.pk.write 0 pk = pqmagicKmNew.pk.write 0 qk := congrArg KeyObject.pk h
  refine ⟨rfl, ?_⟩
  have hfit : 0 + a.pkLen ≤ pqmagic.pkMax := by rwa [Nat.zero_add]
  calc pk = (pqmagicKmNew.pk.write 0 pk).slice 0 a.pkLen := by
          rw [← hpk, Buf.slice_write (hpk ▸ hfit)]
    _ = (pqmagicKmNew.pk.write 0 qk).slice 0 a.pkLen := by rw [hbuf]
    _ = qk := by rw [← hqk, Buf.slice_write (hqk ▸ hfit)]

/-- The decoder takes the encoding of a key, whatever follows it. -/
theorem spkiDecDecode_encoding (rest : Bytes)
    (hsel : selection = 0 ∨ Selects selection selectPublicKey) (hpk : pk.length = a.pkLen) :
    spkiDecDecode selection (a.spkiHeader ++ pk ++ rest) = some (spkiKey a pk) := by
  have hof : Alg.ofContent a.content = some a := by cases a <;> rfl
  have hbits : a.keyBits pk = pk := if_neg (by omega)
  rw [spkiDecDecode, if_neg (by tauto), parseSpki_header rest hpk]
  simp only [hof, hbits]
  rw [if_neg (by simpa using hpk), objObj2txt_content]
  rfl

/-- What the decoder accepts is a public key of one of the algorithms. -/
theorem spkiDecDecode_key {k : RawKey}
    (h : spkiDecDecode selection der = some k) :
    (selection = 0 ∨ Selects selection selectPublicKey) ∧
      ∃ a pk, pk.length = Alg.pkLen a ∧ k = spkiKey a pk := by
  unfold spkiDecDecode at h
  split at h
  · contradiction
  · next hsel =>
    refine ⟨by tauto, ?_⟩
    split at h
    · contradiction
    · next oid bits hparse =>
      split at h
      · contradiction
      · next a ha =>
        have hoid : oid = a.content := by
          unfold Alg.ofContent at ha
          split at ha
          · next hc => rw [hc, ← Option.some.inj ha]
          · split at ha
            · next hc => rw [hc, ← Option.some.inj ha]
            · contradiction
        subst hoid
        split at h
        · contradiction
        · next hlen =>
          rw [objObj2txt_content] at h
          exact ⟨a, _, not_not.mp hlen, (Option.some.inj h).symm⟩

/-- The string is the DER encoding of a key: it starts with the header of an
algorithm, and exactly the bytes of a key follow. -/
def DerEncoded (der : Bytes) : Prop :=
  ∃ a : Alg, der.take 22 = a.spkiHeader ∧ der.length = 22 + a.pkLen

theorem derEncoded_iff :
    DerEncoded der ↔ ∃ a pk, pk.length = Alg.pkLen a ∧ der = a.spkiHeader ++ pk := by
  constructor
  · rintro ⟨a, htake, hlen⟩
    refine ⟨a, der.drop 22, by rw [List.length_drop]; omega, ?_⟩
    rw [← htake, List.take_append_drop]
  · rintro ⟨a, pk, hpk, rfl⟩
    have hlen := length_spkiHeader a
    refine ⟨a, List.take_left' hlen, ?_⟩
    rw [List.length_append]
    omega

/-- A DER encoding that decodes to a key is determined by the key. -/
theorem DerEncoded.eq_of_decode
    (hder : DerEncoded der) (hpk : pk.length = a.pkLen)
    (h : spkiDecDecode selection der = some (spkiKey a pk)) : der = a.spkiHeader ++ pk := by
  obtain ⟨b, qk, hqk, rfl⟩ := derEncoded_iff.mp hder
  have hself := spkiDecDecode_encoding [] (spkiDecDecode_key h).1 hqk
  rw [List.append_nil, h] at hself
  obtain ⟨rfl, rfl⟩ := spkiKey_inj hpk hqk (Option.some.inj hself)
  rfl

/-- **Encodings of a public key.**  Of the strings that decode to the same key,
exactly those in DER are equal to the DER encoding of that key, which is
accepted. -/
theorem spki_unique_iff {selection : ℕ} {der : Bytes} {k : RawKey}
    (h : spkiDecDecode selection der = some k) :
    (∃ enc, DerEncoded enc ∧ spkiDecDecode selection enc = some k) ∧
      ∀ selection' der', spkiDecDecode selection' der' = some k → DerEncoded der' →
        (der = der' ↔ DerEncoded der) := by
  obtain ⟨hsel, a, pk, hpk, rfl⟩ := spkiDecDecode_key h
  constructor
  · refine ⟨a.spkiHeader ++ pk, derEncoded_iff.mpr ⟨a, pk, hpk, rfl⟩, ?_⟩
    have hself := spkiDecDecode_encoding [] hsel hpk
    rwa [List.append_nil] at hself
  · intro selection' der' h' hder'
    constructor
    · rintro rfl
      exact hder'
    · intro hder
      rw [hder.eq_of_decode hpk h, hder'.eq_of_decode hpk h']

/-- A string of zeros that is as long as a key. -/
def zeroKey (a : Alg) : Bytes := (Buf.zero a.pkLen).1

theorem length_zeroKey (a : Alg) : (zeroKey a).length = a.pkLen := (Buf.zero a.pkLen).2

theorem spki_unique_zero : ∃ enc, DerEncoded enc ∧
      spkiDecDecode 0 enc = some (spkiKey .mlkem512 (zeroKey .mlkem512)) :=
  (spki_unique_iff (spkiDecDecode_encoding [] (.inl rfl) (length_zeroKey .mlkem512))).1

/-- The encoding of a key and the same with one byte behind it decode to the same
key. -/
theorem spki_trailing_byte :
    ∃ der k, spkiDecDecode 0 der = some k ∧ spkiDecDecode 0 (der ++ [0]) = some k ∧
      der ≠ der ++ [0] := by
  have hself := spkiDecDecode_encoding [] (.inl rfl) (length_zeroKey .mlkem512)
  rw [List.append_nil] at hself
  exact ⟨_, _, hself, spkiDecDecode_encoding [0] (.inl rfl) (length_zeroKey .mlkem512), by simp⟩

end Tlcp.Provider
