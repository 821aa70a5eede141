import Mathlib.Computability.Language
import Tlcp.Lib.Octets

/-!
# Layout

Wire formats as languages of byte strings.

A format is a product of fields: bytes of a fixed number (`fixed`), or bytes
whose number is told by a header (`framed`), such as a length-prefixed string
(`prefixed`).  Each such field is prefix-free, and so is every product of
them: no string of the language goes on behind another, so a body that is one
has no room for anything behind it.  An optional last field breaks this in
one way only (`PrefixFree.mul_optional`).

`flatMap_split` is for messages in a row, each of which says where it ends.

A reader of `Octets` that takes a value from the front of a buffer shows that
the buffer starts with the field (`mem_mul_of_getUint` and its siblings).
-/

namespace Layout

open Octets

/-! ## prefix-free languages -/

section languages

variable {α : Type} {L M : Language α}

/-- No string of the language goes on behind another one. -/
def PrefixFree (L : Language α) : Prop := ∀ b x, b ∈ L → b ++ x ∈ L → x = []

/-- A string starts with at most one string of the language. -/
theorem PrefixFree.split (hL : PrefixFree L) {b c x y : List α} (hb : b ∈ L) (hc : c ∈ L)
    (h : b ++ x = c ++ y) : b = c ∧ x = y := by
  cases List.append_eq_append_iff.mp h with
  | inl hlong =>
    obtain ⟨z, hz, hx⟩ := hlong
    have hnil : z = [] := hL b z hb (hz ▸ hc)
    subst hnil
    exact ⟨by simpa using hz.symm, by simpa using hx⟩
  | inr hshort =>
    obtain ⟨z, hz, hy⟩ := hshort
    have hnil : z = [] := hL c z hc (hz ▸ hb)
    subst hnil
    exact ⟨by simpa using hz, by simpa using hy.symm⟩

theorem prefixFree_zero : PrefixFree (0 : Language α) :=
  fun b _ hb => absurd hb (Language.notMem_zero b)

theorem prefixFree_one : PrefixFree (1 : Language α) := by
  intro b x hb hbx
  rw [Language.mem_one] at hb hbx
  simpa [hb] using hbx

/-- The language of one string. -/
def single (m : List α) : Language α := {b | b = m}

theorem mem_single {m b : List α} : b ∈ single m ↔ b = m := Iff.rfl

theorem prefixFree_single (m : List α) : PrefixFree (single m) := by
  intro b x hb hbx
  rw [mem_single] at hb hbx
  simpa [hb] using hbx

/-- **Fields in a row**: a product of prefix-free languages is prefix-free. -/
theorem PrefixFree.mul (hL : PrefixFree L) (hM : PrefixFree M) : PrefixFree (L * M) := by
  intro b x hb hbx
  obtain ⟨f, hf, r, hr, hb⟩ := Language.mem_mul.mp hb
  obtain ⟨f', hf', r', hr', hbx⟩ := Language.mem_mul.mp hbx
  have happ : f ++ (r ++ x) = f' ++ r' := by rw [hbx, ← hb, List.append_assoc]
  obtain ⟨_, hrest⟩ := hL.split hf hf' happ
  exact hM r x hr (hrest ▸ hr')

/-- Nothing is left behind a string that is in the language as a whole. -/
theorem PrefixFree.rest_eq_nil (hL : PrefixFree L) {b r : List α} (hb : b ∈ L)
    (h : b ∈ L * single r) : r = [] := by
  obtain ⟨f, hf, r', hr, hfr⟩ := Language.mem_mul.mp h
  rw [mem_single] at hr
  subst hr hfr
  exact hL f r' hf hb

/-- Behind an optional last field, a string goes on only by that field. -/
theorem PrefixFree.mul_optional (hL : PrefixFree L) (hM : PrefixFree M) {b x : List α}
    (hb : b ∈ L * (1 + M)) (hbx : b ++ x ∈ L * (1 + M)) (hx : x ≠ []) : b ∈ L ∧ x ∈ M := by
  obtain ⟨f, hf, r, hr, hb⟩ := Language.mem_mul.mp hb
  obtain ⟨f', hf', r', hr', hbx⟩ := Language.mem_mul.mp hbx
  have happ : f ++ (r ++ x) = f' ++ r' := by rw [hbx, ← hb, List.append_assoc]
  obtain ⟨_, hrest⟩ := hL.split hf hf' happ
  rw [Language.mem_add, Language.mem_one] at hr hr'
  cases hr with
  | inl hnone =>
    subst hnone
    have hsome : x ∈ M := by
      cases hr' with
      | inl hnil => simp [hnil] at hrest; exact absurd hrest hx
      | inr hsome => simpa [← hrest] using hsome
    exact ⟨by simpa [← hb] using hf, hsome⟩
  | inr hsome =>
    cases hr' with
    | inl hnil => simp [hnil, hx] at hrest
    | inr hsome' => exact absurd (hM r x hsome (hrest ▸ hsome')) hx

end languages

/-! ## streams of values -/

section streams

variable {α β : Type} {enc : β → List α} {P : β → Prop}

/-- **Streams decode in one way**: if a string starts with the encoding of at
most one value, and no encoding is empty, then values that a stream starts
with are its first ones. -/
theorem flatMap_split (hsplit : ∀ a b x y, P a → P b → enc a ++ x = enc b ++ y → a = b ∧ x = y)
    (hne : ∀ a, P a → enc a ≠ []) {as bs : List β} {r : List α} (has : ∀ a ∈ as, P a)
    (hbs : ∀ b ∈ bs, P b) (h : as.flatMap enc ++ r = bs.flatMap enc) :
    ∃ cs, bs = as ++ cs ∧ r = cs.flatMap enc := by
  induction as generalizing bs with
  | nil => exact ⟨bs, rfl, h⟩
  | cons a as ih =>
    have ha : P a := has a List.mem_cons_self
    rw [List.flatMap_cons, List.append_assoc] at h
    cases bs with
    | nil => exact absurd (List.append_eq_nil_iff.mp h).1 (hne a ha)
    | cons b bs =>
      have hb : P b := hbs b List.mem_cons_self
      rw [List.flatMap_cons] at h
      obtain ⟨hab, hrest⟩ := hsplit a b _ _ ha hb h
      obtain ⟨cs, hcs, hr⟩ := ih (fun c hc => has c (List.mem_cons_of_mem a hc))
        (fun c hc => hbs c (List.mem_cons_of_mem b hc)) hrest
      exact ⟨cs, by rw [hab, hcs]; rfl, hr⟩

end streams

/-! ## fields -/

/-- A header of `w` bytes and as many bytes as it tells. -/
def framed (w : Nat) (len : Bytes → Nat) : Language UInt8 :=
  {b | ∃ h r, b = h ++ r ∧ h.length = w ∧ r.length = len h}

/-- `n` bytes. -/
def fixed (n : Nat) : Language UInt8 := framed n fun _ => 0

/-- A byte string behind its length in `w` bytes. -/
def prefixed (w : Nat) : Language UInt8 := framed w ofUint

theorem prefixFree_framed (w : Nat) (len : Bytes → Nat) : PrefixFree (framed w len) := by
  intro b x hb hbx
  obtain ⟨h, r, hb, hh, hr⟩ := hb
  obtain ⟨h', r', hbx, hh', hr'⟩ := hbx
  have happ : h ++ (r ++ x) = h' ++ r' := by rw [← hbx, hb, List.append_assoc]
  obtain ⟨hhead, hrest⟩ := List.append_inj happ (hh.trans hh'.symm)
  have hlen : (r ++ x).length = r.length := by rw [hrest, hr', hr, hhead]
  rw [List.length_append] at hlen
  exact List.eq_nil_of_length_eq_zero (by omega)

theorem prefixFree_fixed (n : Nat) : PrefixFree (fixed n) := prefixFree_framed n _

theorem prefixFree_prefixed (w : Nat) : PrefixFree (prefixed w) := prefixFree_framed w _

theorem mem_fixed {n : Nat} {b : Bytes} : b ∈ fixed n ↔ b.length = n := by
  constructor
  · intro ⟨h, r, hb, hh, hr⟩
    have hnil : r = [] := List.eq_nil_of_length_eq_zero hr
    simp [hb, hh, hnil]
  · intro hb
    exact ⟨b, [], by simp, hb, rfl⟩

theorem mem_prefixed {w : Nat} {b : Bytes} :
    b ∈ prefixed w ↔ ∃ body, getPrefixed w b = some (body, []) := by
  simp only [getPrefixed_eq_some_iff, List.append_nil]
  constructor
  · intro ⟨h, r, hb, hh, hr⟩
    refine ⟨r, ?_, ?_⟩
    · rw [hb, hr, ← hh, putUint_ofUint]
    · rw [hr, ← hh]
      exact ofUint_lt h
  · intro ⟨body, hb, hlen⟩
    exact ⟨putUint w body.length, body, hb, length_putUint w _, (ofUint_putUint hlen).symm⟩

/-! ## what the readers show -/

variable {L : Language UInt8} {w n : Nat} {buf body rest : Bytes}

theorem mem_mul_of_splitFront (h : splitFront n buf = some (body, rest)) (hrest : rest ∈ L) :
    buf ∈ fixed n * L := by
  obtain ⟨hbuf, hlen⟩ := splitFront_eq_some_iff.mp h
  rw [hbuf]
  exact Language.append_mem_mul (mem_fixed.mpr hlen) hrest

theorem mem_mul_of_getUint (h : getUint w buf = some (n, rest)) (hrest : rest ∈ L) :
    buf ∈ fixed w * L := by
  obtain ⟨hbuf, _⟩ := getUint_eq_some_iff.mp h
  rw [hbuf]
  exact Language.append_mem_mul (mem_fixed.mpr (length_putUint w n)) hrest

theorem mem_mul_of_getPrefixed (h : getPrefixed w buf = some (body, rest)) (hrest : rest ∈ L) :
    buf ∈ prefixed w * L := by
  obtain ⟨hbuf, hlen⟩ := getPrefixed_eq_some_iff.mp h
  rw [hbuf, ← List.append_assoc]
  refine Language.append_mem_mul (mem_prefixed.mpr ⟨body, ?_⟩) hrest
  exact getPrefixed_eq_some_iff.mpr ⟨by simp, hlen⟩

theorem mem_fixed_of_splitFront (h : splitFront n buf = some (body, [])) : buf ∈ fixed n := by
  obtain ⟨hbuf, hlen⟩ := splitFront_eq_some_iff.mp h
  exact mem_fixed.mpr (by simpa [hbuf] using hlen)

/-- A length that is checked against what is left. -/
theorem mem_prefixed_of_getUint (h : getUint w buf = some (n, rest)) (hlen : rest.length = n) :
    buf ∈ prefixed w := by
  obtain ⟨hbuf, hn⟩ := getUint_eq_some_iff.mp h
  exact ⟨putUint w n, rest, hbuf, length_putUint w n, by rw [hlen, ofUint_putUint hn]⟩

/-! ## bytes behind a field -/

variable (x : Bytes)

theorem splitFront_suffix (h : splitFront n buf = some (body, rest)) :
    splitFront n (buf ++ x) = some (body, rest ++ x) := by
  obtain ⟨hbuf, hlen⟩ := splitFront_eq_some_iff.mp h
  exact splitFront_eq_some_iff.mpr ⟨by rw [hbuf, List.append_assoc], hlen⟩

theorem getUint_suffix (h : getUint w buf = some (n, rest)) :
    getUint w (buf ++ x) = some (n, rest ++ x) := by
  obtain ⟨hbuf, hn⟩ := getUint_eq_some_iff.mp h
  exact getUint_eq_some_iff.mpr ⟨by rw [hbuf, List.append_assoc], hn⟩

theorem getPrefixed_suffix (h : getPrefixed w buf = some (body, rest)) :
    getPrefixed w (buf ++ x) = some (body, rest ++ x) := by
  obtain ⟨hbuf, hlen⟩ := getPrefixed_eq_some_iff.mp h
  exact getPrefixed_eq_some_iff.mpr ⟨by rw [hbuf]; simp, hlen⟩

end Layout
