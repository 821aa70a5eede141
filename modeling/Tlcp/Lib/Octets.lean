import Mathlib.Algebra.GroupWithZero.Nat
import Mathlib.Data.List.Induction

/-!
# Octets

Byte strings as wire formats use them: big-endian integers of a fixed width
and byte strings behind such an integer as their length.  Every reader takes
its value from the front of the buffer and returns the bytes it left alone;
its specification is one equivalence (`getUint_eq_some_iff`,
`getPrefixed_eq_some_iff`) that says which buffers it accepts, so that the
round trip over an appended suffix and the soundness of a successful read are
the two directions of the same lemma.
-/

namespace Octets

variable {w n : Nat} {buf rest body : Bytes}

/-- A byte string. -/
abbrev Bytes := List UInt8

/-- A buffer of `n` bytes. -/
abbrev Buf (n : Nat) := {bs : Bytes // bs.length = n}

/-- One byte, `n` times. -/
def Buf.fill (n : Nat) (b : UInt8) : Buf n := ⟨List.replicate n b, List.length_replicate⟩

/-- `n` zero bytes. -/
def Buf.zero (n : Nat) : Buf n := ⟨List.replicate n 0, List.length_replicate⟩

/-! ## splitting a buffer -/

/-- Split off the first `n` bytes, if there are that many. -/
def splitFront (n : Nat) (buf : Bytes) : Option (Bytes × Bytes) :=
  if n ≤ buf.length then some (buf.take n, buf.drop n) else none

theorem splitFront_append {front : Bytes} (rest : Bytes) (h : front.length = n) :
    splitFront n (front ++ rest) = some (front, rest) := by
  subst h
  simp [splitFront]

/-- The front and the rest are the buffer, cut after `n` bytes. -/
theorem splitFront_eq_some_iff {front : Bytes} :
    splitFront n buf = some (front, rest) ↔ buf = front ++ rest ∧ front.length = n := by
  constructor
  · intro h
    unfold splitFront at h
    split at h
    · next hn =>
      injection h with hpair
      injection hpair with hfront hrest
      subst hfront hrest
      exact ⟨(List.take_append_drop n buf).symm, by simp [hn]⟩
    · contradiction
  · intro ⟨hbuf, hlen⟩
    rw [hbuf]
    exact splitFront_append rest hlen

/-! ## big-endian integers -/

/-- The `w` low bytes of `n`, most significant first. -/
def putUint : Nat → Nat → Bytes
  | 0, _ => []
  | w + 1, n => putUint w (n / 256) ++ [UInt8.ofNat n]

/-- The number that a big-endian byte string spells. -/
def ofUint (bs : Bytes) : Nat := bs.foldl (fun acc b => acc * 256 + b.toNat) 0

@[simp] theorem length_putUint (w n : Nat) : (putUint w n).length = w := by
  induction w generalizing n with
  | zero => rfl
  | succ w ih => simp [putUint, ih]

@[simp] theorem ofUint_nil : ofUint [] = 0 := rfl

theorem ofUint_concat (bs : Bytes) (b : UInt8) : ofUint (bs ++ [b]) = ofUint bs * 256 + b.toNat := by
  simp [ofUint]

/-- An integer that fits its width reads back. -/
theorem ofUint_putUint (h : n < 256 ^ w) : ofUint (putUint w n) = n := by
  induction w generalizing n with
  | zero => simp_all [putUint]
  | succ w ih =>
    have hq : n / 256 < 256 ^ w := by
      rw [Nat.pow_succ] at h
      exact Nat.div_lt_of_lt_mul (by omega)
    rw [putUint, ofUint_concat, ih hq]
    simp only [UInt8.toNat_ofNat']
    omega

theorem ofUint_lt (bs : Bytes) : ofUint bs < 256 ^ bs.length := by
  induction bs using List.reverseRecOn with
  | nil => simp
  | append_singleton bs b ih =>
    have hb := b.toNat_lt
    rw [ofUint_concat, List.length_append, List.length_singleton, Nat.pow_succ]
    omega

/-- Every byte string is the encoding of the number it spells. -/
theorem putUint_ofUint (bs : Bytes) : putUint bs.length (ofUint bs) = bs := by
  induction bs using List.reverseRecOn with
  | nil => rfl
  | append_singleton bs b ih =>
    have hb := b.toNat_lt
    have hdiv : (ofUint bs * 256 + b.toNat) / 256 = ofUint bs := by omega
    have hbyte : UInt8.ofNat (ofUint bs * 256 + b.toNat) = b := by
      apply UInt8.toNat_inj.mp
      simp only [UInt8.toNat_ofNat']
      omega
    rw [List.length_append, List.length_singleton, putUint, ofUint_concat, hdiv, ih, hbyte]

/-- Read an integer of `w` bytes. -/
def getUint (w : Nat) (buf : Bytes) : Option (Nat × Bytes) :=
  (splitFront w buf).map fun p => (ofUint p.1, p.2)

/-- **Integer fields**: what `getUint` accepts is a big-endian encoding, and
all of them. -/
theorem getUint_eq_some_iff :
    getUint w buf = some (n, rest) ↔ buf = putUint w n ++ rest ∧ n < 256 ^ w := by
  simp only [getUint, Option.map_eq_some_iff, Prod.exists, Prod.mk.injEq]
  constructor
  · rintro ⟨front, rest', h, hn, rfl⟩
    obtain ⟨hbuf, hlen⟩ := splitFront_eq_some_iff.mp h
    subst hlen hn
    exact ⟨by rw [putUint_ofUint]; exact hbuf, ofUint_lt front⟩
  · rintro ⟨rfl, hn⟩
    exact ⟨_, _, splitFront_append rest (length_putUint w n), ofUint_putUint hn, rfl⟩

theorem getUint_append (rest : Bytes) (h : n < 256 ^ w) :
    getUint w (putUint w n ++ rest) = some (n, rest) :=
  getUint_eq_some_iff.mpr ⟨rfl, h⟩

theorem putUint_inj {m : Nat} {x y : Bytes} (hm : m < 256 ^ w) (hn : n < 256 ^ w)
    (h : putUint w m ++ x = putUint w n ++ y) : m = n ∧ x = y := by
  obtain ⟨hbytes, hrest⟩ := List.append_inj h (by simp)
  exact ⟨by rw [← ofUint_putUint hm, hbytes, ofUint_putUint hn], hrest⟩

/-! ## length-prefixed byte strings -/

/-- Write a byte string behind its length in `w` bytes; there is no encoding
of a string too long for its length field. -/
def putPrefixed (w : Nat) (body : Bytes) : Option Bytes :=
  if body.length < 256 ^ w then some (putUint w body.length ++ body) else none

/-- Read a length of `w` bytes and then that many bytes. -/
def getPrefixed (w : Nat) (buf : Bytes) : Option (Bytes × Bytes) :=
  (getUint w buf).bind fun p => splitFront p.1 p.2

theorem putPrefixed_eq_some_iff {out : Bytes} :
    putPrefixed w body = some out ↔ body.length < 256 ^ w ∧ out = putUint w body.length ++ body := by
  unfold putPrefixed
  split <;> grind

/-- **Length-prefixed fields**: what `getPrefixed` accepts is a length-prefixed
string, and all of them. -/
theorem getPrefixed_eq_some_iff : getPrefixed w buf = some (body, rest) ↔
      buf = putUint w body.length ++ (body ++ rest) ∧ body.length < 256 ^ w := by
  simp only [getPrefixed, Option.bind_eq_some_iff, Prod.exists]
  constructor
  · rintro ⟨n, buf', hlen, hbody⟩
    obtain ⟨hbuf, hn⟩ := getUint_eq_some_iff.mp hlen
    obtain ⟨hbuf', rfl⟩ := splitFront_eq_some_iff.mp hbody
    exact ⟨by rw [hbuf, hbuf'], hn⟩
  · rintro ⟨rfl, hn⟩
    exact ⟨_, _, getUint_append _ hn, splitFront_append rest rfl⟩

/-- A length-prefixed string reads back over an appended suffix. -/
theorem getPrefixed_append {out : Bytes} (rest : Bytes)
    (h : putPrefixed w body = some out) : getPrefixed w (out ++ rest) = some (body, rest) := by
  obtain ⟨hlen, rfl⟩ := putPrefixed_eq_some_iff.mp h
  exact getPrefixed_eq_some_iff.mpr ⟨List.append_assoc _ _ _, hlen⟩

theorem putPrefixed_inj {a b x y : Bytes} (ha : a.length < 256 ^ w)
    (hb : b.length < 256 ^ w)
    (h : putUint w a.length ++ (a ++ x) = putUint w b.length ++ (b ++ y)) : a = b ∧ x = y := by
  have hread : getPrefixed w (putUint w a.length ++ (a ++ x)) = some (a, x) :=
    getPrefixed_eq_some_iff.mpr ⟨rfl, ha⟩
  rw [h, getPrefixed_eq_some_iff.mpr ⟨rfl, hb⟩] at hread
  simp only [Option.some.injEq, Prod.mk.injEq] at hread
  exact ⟨hread.1.symm, hread.2.symm⟩

/-! ## buffers of items -/

section items

variable {ε α : Type}

/-- Read items until the buffer is empty.  The fuel is a bound on the number
of items; a reader that takes at least one byte an item never runs out of
`buf.length`. -/
def readAll (item : Bytes → Except ε (α × Bytes)) (outOfFuel : ε) : Nat → Bytes → Except ε (List α)
  | _, [] => .ok []
  | 0, _ :: _ => .error outOfFuel
  | fuel + 1, b :: bs => do
      let (x, rest) ← item (b :: bs)
      let xs ← readAll item outOfFuel fuel rest
      pure (x :: xs)

/-- The buffer is a sequence of items, `xs`. -/
inductive Reads (item : Bytes → Except ε (α × Bytes)) : Bytes → List α → Prop where
  | nil : Reads item [] []
  | cons {buf rest : Bytes} {x : α} {xs : List α} : buf ≠ [] → item buf = .ok (x, rest) →
      Reads item rest xs → Reads item buf (x :: xs)

theorem reads_of_readAll {item : Bytes → Except ε (α × Bytes)} {e : ε} {fuel : Nat}
    {xs : List α} (h : readAll item e fuel buf = .ok xs) : Reads item buf xs := by
  induction fuel generalizing buf xs with
  | zero =>
    cases buf with
    | nil => simp only [readAll, Except.ok.injEq] at h; subst h; exact .nil
    | cons b bs => simp [readAll] at h
  | succ fuel ih =>
    cases buf with
    | nil => simp only [readAll, Except.ok.injEq] at h; subst h; exact .nil
    | cons b bs =>
      simp only [readAll] at h
      cases hitem : item (b :: bs) with
      | error e => simp [hitem, bind, Except.bind] at h
      | ok p =>
        obtain ⟨x, rest⟩ := p
        cases hrest : readAll item e fuel rest with
        | error e => simp [hitem, hrest, bind, Except.bind] at h
        | ok ys =>
          simp only [hitem, hrest, bind, Except.bind, pure, Except.pure, Except.ok.injEq] at h
          subst h
          exact .cons (by simp) hitem (ih hrest)

end items

end Octets
