import Tlcp.Lib.Octets

/-!
# Tlcp.Provider.Asn1

The ASN.1 reader under the decoders of the pqmagic provider: the functions of
`asn1_lib.c` and `tasn_dec.c` as far as `X509_ALGOR` and `BIT STRING` use them.

The reader takes BER, not only DER: lengths may be padded or indefinite, tags may
be in the long form, strings may be constructed.  A window of the input is a byte
string; the bytes that a function leaves are returned.  Values are kept as far as
the provider looks at them: the content of an object identifier and the bytes of
a bit string.  The `int` that `asn1_ex_c2i` takes for a length is the length
itself, so inputs are below 2 GiB.
-/

namespace Tlcp.Provider

open Octets

/-! ## headers -/

/-- `V_ASN1_UNIVERSAL` -/
def universal : ℕ := 0

/-- What is read of a header. -/
structure Header where
  constructed : Bool
  xclass : ℕ
  tag : ℕ
  inf : Bool
  plen : ℕ
deriving DecidableEq

/-- `asn1_get_length`: whether the length is indefinite, and the length. -/
def asn1GetLength : Bytes → Option (Bool × ℕ × Bytes)
  | [] => none
  | b :: p =>
    let i := (b &&& 0x7f).toNat
    if b = 0x80 then some (true, 0, p)
    else if b &&& 0x80 = 0 then some (false, i, p)
    else if p.length < i + 1 then none
    else
      -- leading zeros are skipped before the digits are counted
      let digits := (p.take i).dropWhile (· == 0)
      if 8 < digits.length ∨ 2 ^ 63 ≤ ofUint digits then none
      else some (false, ofUint digits, p.drop i)

/-- The long form of a tag. -/
def highTag (len : ℕ) : Bytes → Option (ℕ × Bytes)
  | [] => none
  | b :: p =>
    let len := len <<< 7 ||| (b &&& 0x7f).toNat
    if p = [] then none
    else if b &&& 0x80 = 0 then some (len, p)
    else if 2147483647 >>> 7 < len then none
    else highTag len p

/-- `ASN1_get_object`; a header that announces more than there is counts as an
error, as it does for every caller. -/
def asn1GetObject : Bytes → Option (Header × Bytes)
  | [] => none
  | b :: p =>
    if p = [] then none
    else
      match if b &&& 0x1f = 0x1f then highTag 0 p else some ((b &&& 0x1f).toNat, p) with
      | none => none
      | some (tag, p) =>
        match asn1GetLength p with
        | none => none
        | some (inf, plen, p) =>
          if inf ∧ b &&& 0x20 = 0 then none
          else if p.length < plen then none
          else
            some ({ constructed := b &&& 0x20 ≠ 0, xclass := (b &&& 0xc0).toNat, tag, inf, plen }, p)

/-- `asn1_check_tlen`, for a field that is not optional: the length of an
indefinite form becomes that of the window. -/
def asn1CheckTlen (expected : Option (ℕ × ℕ)) (p : Bytes) : Option (Header × Bytes) :=
  match asn1GetObject p with
  | none => none
  | some (h, p) =>
    if ∀ e ∈ expected, e = (h.tag, h.xclass) then
      some ({ h with plen := if h.inf then p.length else h.plen }, p)
    else none

/-- `asn1_check_eoc` -/
def asn1CheckEoc : Bytes → Option Bytes
  | 0 :: 0 :: p => some p
  | _ => none

/-! ## contents -/

/-- `asn1_find_end`: what lies behind the end-of-contents octets that close an
indefinite form.  Every round takes bytes from the window. -/
def asn1FindEnd : ℕ → ℕ → Bytes → Option Bytes
  | 0, _, _ => none
  | _ + 1, _, [] => none
  | fuel + 1, expectedEoc, b :: p =>
    match asn1CheckEoc (b :: p) with
    | some p => if expectedEoc = 1 then some p else asn1FindEnd fuel (expectedEoc - 1) p
    | none =>
      match asn1CheckTlen none (b :: p) with
      | none => none
      | some (h, p) =>
        if h.inf then
          if expectedEoc = 4294967295 then none else asn1FindEnd fuel (expectedEoc + 1) p
        else asn1FindEnd fuel expectedEoc (p.drop h.plen)

/-- `asn1_collect`: the strings inside a constructed string, put together.  Every
round takes bytes from the window, and at most five strings are nested. -/
def asn1Collect : ℕ → ℕ → Bool → Bytes → Option (Bytes × Bytes)
  | 0, _, _, _ => none
  | _ + 1, _, inf, [] => if inf then none else some ([], [])
  | fuel + 1, depth, inf, b :: p =>
    match asn1CheckEoc (b :: p) with
    | some p => if inf then some ([], p) else none
    | none =>
      match asn1CheckTlen none (b :: p) with
      | none => none
      | some (h, p) =>
        let inner := if h.constructed then
            if 5 ≤ depth then none
            else if h.inf then asn1Collect fuel (depth + 1) true p
            else (asn1Collect fuel (depth + 1) false (p.take h.plen)).map fun r => (r.1, p.drop h.plen)
          else some (p.take h.plen, p.drop h.plen)
        match inner with
        | none => none
        | some (d, p) => (asn1Collect fuel depth inf p).map fun r => (d ++ r.1, r.2)

/-- The types that `asn1_ex_c2i` and its caller treat apart; `other` is every tag
of another class. -/
inductive UType where
  | other
  | tag (n : ℕ)
deriving DecidableEq

namespace UType

/-- `V_ASN1_BOOLEAN` -/
def boolean : UType := .tag 1
/-- `V_ASN1_INTEGER` -/
def integer : UType := .tag 2
/-- `V_ASN1_BIT_STRING` -/
def bitString : UType := .tag 3
/-- `V_ASN1_NULL` -/
def null : UType := .tag 5
/-- `V_ASN1_OBJECT` -/
def object : UType := .tag 6
/-- `V_ASN1_ENUMERATED` -/
def enumerated : UType := .tag 10
/-- `V_ASN1_SEQUENCE` -/
def sequence : UType := .tag 16
/-- `V_ASN1_SET` -/
def set : UType := .tag 17
/-- `V_ASN1_UNIVERSALSTRING` -/
def universalString : UType := .tag 28
/-- `V_ASN1_BMPSTRING` -/
def bmpString : UType := .tag 30

/-- The tag and class that the header has to have. -/
def expected : UType → Option (ℕ × ℕ)
  | other => none
  | tag n => some (n, universal)

end UType

/-- The first part of `asn1_d2i_ex_primitive`: the content octets and what lies
behind them. -/
def primitiveContent (utype : UType) (buf : Bytes) : Option (Bytes × Bytes) :=
  match asn1CheckTlen utype.expected buf with
  | none => none
  | some (h, p) =>
    if utype = .sequence ∨ utype = .set ∨ utype = .other then
      -- left in encoded form
      if utype ≠ .other ∧ ¬h.constructed then none
      else if h.inf then
        (asn1FindEnd (p.length + 1) 1 p).map fun q => (buf.take (buf.length - q.length), q)
      else some (buf.take (buf.length - (p.length - h.plen)), p.drop h.plen)
    else if h.constructed then
      if utype = .null ∨ utype = .boolean ∨ utype = .object ∨ utype = .integer ∨
          utype = .enumerated then none
      else if h.inf then asn1Collect (p.length + 1) 0 true p
      else (asn1Collect (p.length + 1) 0 false (p.take h.plen)).map fun r => (r.1, p.drop h.plen)
    else some (p.take h.plen, p.drop h.plen)

/-- No arc of an object identifier starts with `0x80`; `inArc` says that the
octet before was not the last one of its arc. -/
def arcsStart (inArc : Bool) : Bytes → Bool
  | [] => true
  | b :: p => (inArc || b != 0x80) && arcsStart (b &&& 0x80 != 0) p

/-- `ossl_c2i_ASN1_OBJECT` accepts the content: there is some, it ends with the
last octet of an arc, and the arcs are not padded. -/
def c2iObject (cont : Bytes) : Bool :=
  cont.getLast?.any (fun b => b &&& 0x80 == 0) && arcsStart false cont

/-- `ossl_c2i_ASN1_BIT_STRING`: the bytes of the string, with the unused bits of
the last one cleared. -/
def c2iBitString : Bytes → Option Bytes
  | [] => none
  | i :: d =>
    if 7 < i then none
    else some (d.dropLast ++ (d.getLast?.map fun b => b &&& ((0xff : UInt8) <<< i)).toList)

/-- `c2i_ibuf` accepts the content of an integer. -/
def c2iInteger : Bytes → Bool
  | [] => false
  | [_] => true
  | b :: c :: d =>
    let pad := b = 0 ∨ (b = 0xff ∧ (c :: d).any (· != 0))
    ¬(pad ∧ b &&& 0x80 = c &&& 0x80)

/-- `asn1_ex_c2i` accepts the content as a value of the type. -/
def asn1ExC2i (utype : UType) (cont : Bytes) : Bool := if utype = .object then c2iObject cont
  else if utype = .null then cont.length = 0
  else if utype = .boolean then cont.length = 1
  else if utype = .bitString then (c2iBitString cont).isSome
  else if utype = .integer ∨ utype = .enumerated then c2iInteger cont
  else if utype = .bmpString then cont.length % 2 = 0
  else if utype = .universalString then cont.length % 4 = 0
  else true

/-! ## the items of a `SubjectPublicKeyInfo` -/

/-- `asn1_d2i_ex_primitive` for `ASN1_OBJECT`: the content. -/
def d2iObject (p : Bytes) : Option (Bytes × Bytes) :=
  (primitiveContent .object p).filter fun r => asn1ExC2i .object r.1

/-- `asn1_d2i_ex_primitive` for `ASN1_ANY`: the type is that of the header. -/
def d2iAny (p : Bytes) : Option Bytes := match asn1CheckTlen none p with
  | none => none
  | some (h, _) =>
    let utype : UType := if h.xclass ≠ universal then .other else .tag h.tag
    ((primitiveContent utype p).filter fun r => asn1ExC2i utype r.1).map Prod.snd

/-- `d2i_ASN1_BIT_STRING`: the bytes of the string. -/
def d2iBitString (p : Bytes) : Option (Bytes × Bytes) := match primitiveContent .bitString p with
  | none => none
  | some (cont, p) => (c2iBitString cont).map fun d => (d, p)

/-- The fields of an `X509_ALGOR` in their window: the identifier, then the
parameters, if there is anything left for them.  The result is what is left. -/
def algorFields (inf : Bool) (w : Bytes) : Option (Bytes × Bytes) :=
  if w = [] ∨ (asn1CheckEoc w).isSome then none
  else
    match d2iObject w with
    | none => none
    | some (oid, w) =>
      if w = [] then if inf then none else some (oid, [])
      else
        match asn1CheckEoc w with
        | some w => if inf then some (oid, w) else none
        | none =>
          match d2iAny w with
          | none => none
          | some w =>
            if inf then (asn1CheckEoc w).map fun w => (oid, w)
            else if w = [] then some (oid, [])
            else none

/-- `d2i_X509_ALGOR`: the content of the identifier. -/
def d2iX509Algor (p : Bytes) : Option (Bytes × Bytes) :=
  match asn1CheckTlen (UType.expected .sequence) p with
  | none => none
  | some (h, p) =>
    if ¬h.constructed then none
    else if h.inf then algorFields true p
    else (algorFields false (p.take h.plen)).map fun r => (r.1, p.drop h.plen)

end Tlcp.Provider
