import Tlcp.Lib.Run
import Tlcp.Provider.Key

/-!
# Tlcp.Provider.Signature

Streaming signatures of the pqmagic provider.

A signature context collects the message in a buffer that grows by doubling; the
final calls hash what has been collected and hand the digest to ML-DSA-44.  The
runs are of any number of contexts, which may be duplicated, and of key objects
that may change behind the contexts that point to them.

* `Collects.append` : an update appends its chunk;
* `World.collected_run` : after every run whose updates succeed, each context holds the
  chunks given to it since its last init (`Collects`);
* `streaming_iff` : the final calls and the size query then do what the one-shot
  functions do exactly if these chunks are not all empty.

Memory is explicit: `acc` is the block that the pointer leads to, and an
allocation is answered by the environment, with `none` for `NULL` and otherwise
with the bytes that happen to be in the new part of the block.  A copy through a
`NULL` pointer or past the end of a block has no result.
-/

namespace Tlcp.Provider

open Octets Run

variable {ncap k need i : ℕ}

/-! ## contexts -/

/-- `SIZE_MAX` -/
def sizeMax : ℕ := 2 ^ 64 - 1

/-- `MLDSA44_SIG_LEN` -/
def mldsa44SigLen : ℕ := 2420

/-- A byte string whose length is a `size_t`. -/
abbrev Chunk := {d : Bytes // d.length ≤ sizeMax}

/-- `struct pqmagic_sig_ctx`; a key object is named by a number. -/
structure SigCtx where
  key : Option ℕ
  acc : Option Bytes
  accLen : ℕ
  accCap : ℕ

/-- `pqmagic_sig_newctx` -/
def pqmagicSigNewctx : SigCtx where
  key := none
  acc := none
  accLen := 0
  accCap := 0

/-- The answer of the allocator to a request. -/
abbrev Memory := Option (ℕ → UInt8)

/-- `pqmagic_sig_dupctx` -/
def pqmagicSigDupctx (src : SigCtx) (mem : Memory) : Option SigCtx := match src.acc with
  | some acc =>
    if 0 < src.accLen then
      match mem with
      | none => none
      | some _ =>
        some { src with acc := some (acc.take src.accLen), accCap := src.accLen }
    else some { src with acc := none, accLen := 0, accCap := 0 }
  | none => some { src with acc := none, accLen := 0, accCap := 0 }

/-- The loop that doubles the capacity until it suffices. -/
def doubleCap (need : ℕ) : ℕ → ℕ → Option ℕ
  | 0, ncap => if ncap < need then none else some ncap
  | rounds + 1, ncap =>
    if ncap < need then
      if sizeMax / 2 < ncap then none else doubleCap need rounds (ncap * 2)
    else some ncap

/-- `OPENSSL_realloc` to a larger block: the old bytes, then those of the new part. -/
def realloc (acc : Option Bytes) (ncap : ℕ) (fresh : ℕ → UInt8) : Bytes :=
  acc.getD [] ++ (List.range (ncap - (acc.getD []).length)).map fresh

/-- The copy of a chunk behind the bytes that are there. -/
def copyChunk (ctx : SigCtx) (data : Chunk) (need : ℕ) : Option (Bool × SigCtx) :=
  match ctx.acc with
  | none => none
  | some acc =>
    if acc.length < ctx.accLen + data.1.length then none
    else
      some (true, { ctx with
        acc := some (acc.take ctx.accLen ++ data.1 ++ acc.drop (ctx.accLen + data.1.length))
        accLen := need })

/-- `pqmagic_sig_acc_append`: what it returns and the context it leaves. -/
def pqmagicSigAccAppend (ctx : SigCtx) (data : Chunk) (mem : Memory) : Option (Bool × SigCtx) :=
  if data.1.length = 0 then some (true, ctx)
  else
    let need := (ctx.accLen + data.1.length) % (sizeMax + 1)
    if need < ctx.accLen then some (false, ctx)
    else if ctx.accCap < need then
      match doubleCap need 64 (if ctx.accCap ≠ 0 then ctx.accCap else 4096) with
      | none => some (false, ctx)
      | some ncap =>
        match mem with
        | none => some (false, { ctx with acc := none })
        | some fresh =>
          copyChunk { ctx with acc := some (realloc ctx.acc ncap fresh), accCap := ncap } data need
    else copyChunk ctx data need

/-- The two init functions, which differ in what they ask of the key. -/
def digestInit (fits : RawKey → Bool) (keys : ℕ → RawKey) (ctx : SigCtx) (mdname : Option String)
    (provkey : Option ℕ) : Bool × SigCtx :=
  match provkey with
  | none => (false, ctx)
  | some k =>
    if ¬fits (keys k) then (false, ctx)
    else if (keys k).oidText ≠ Alg.mldsa44.oid then (false, ctx)
    else if ∃ name ∈ mdname, name.toLower ≠ "sm3" then (false, ctx)
    else (true, { ctx with key := some k, accLen := 0, acc := none, accCap := 0 })

/-- `pqmagic_sig_digest_verify_init` -/
def pqmagicSigDigestVerifyInit := digestInit fun k => k.pkLen = Alg.mldsa44.pkLen

/-- `pqmagic_sig_digest_sign_init` -/
def pqmagicSigDigestSignInit := digestInit fun k => k.skLen = Alg.mldsa44.skLen

/-! ## final calls -/

/-- What the final calls rest on: the digest of `EVP_sm3`, which is absent if a
call fails, and the two functions of PQMagic, for a digest and a key. -/
structure Backend where
  sm3 : Bytes → Option Bytes
  signature : Bytes → Bytes → Option Bytes
  verify : Bytes → Bytes → Bytes → Bool

/-- The message that a final call hashes, and the key it uses. -/
def SigCtx.finalInput (ctx : SigCtx) : Option (ℕ × Bytes) := match ctx.key, ctx.acc with
  | some k, some acc => if ctx.accLen = 0 then none else some (k, acc.take ctx.accLen)
  | _, _ => none

variable {ctx : SigCtx} {m : Bytes} {w : World}

theorem SigCtx.finalInput_key
    (h : ctx.finalInput = some (k, m)) : ctx.key = some k := by
  unfold finalInput at h
  split at h
  · next hkey _ =>
    split at h
    · contradiction
    · simp only [Option.some.injEq, Prod.mk.injEq] at h
      rw [hkey, h.1]
  · contradiction

/-- `pqmagic_sig_digest_verify_final` -/
def pqmagicSigDigestVerifyFinal (b : Backend) (keys : ℕ → RawKey) (ctx : SigCtx) (sig : Bytes) :
    Bool :=
  match ctx.finalInput with
  | none => false
  | some (k, m) =>
    match b.sm3 m with
    | none => false
    | some digest => b.verify sig digest (keys k).pk.1

/-- `pqmagic_sig_digest_sign_final`: the length that it reports and, unless `sig`
is `NULL`, the signature.  `sig` is the size of the buffer. -/
def pqmagicSigDigestSignFinal (b : Backend) (keys : ℕ → RawKey) (ctx : SigCtx) (sig : Option ℕ) :
    Option (ℕ × Option Bytes) :=
  match ctx.finalInput with
  | none => none
  | some (k, m) =>
    if (keys k).skLen ≠ Alg.mldsa44.skLen then none
    else
      match sig with
      | none => some (mldsa44SigLen, none)
      | some sigsize =>
        if sigsize < mldsa44SigLen then none
        else
          match b.sm3 m with
          | none => none
          | some digest =>
            (b.signature digest (keys k).sk.1).map fun sig => (mldsa44SigLen, some sig)

/-! ## runs -/

/-- The contexts and key objects of a process, by number.  `given` is not part of
the program: the chunks given to each context since its last init. -/
structure World where
  keys : ℕ → RawKey
  ctxs : ℕ → Option SigCtx
  given : ℕ → Bytes

/-- Calls of the provider. -/
inductive SigEvent where
  | setKey (k : ℕ) (key : RawKey)
  | newctx (i : ℕ)
  | freectx (i : ℕ)
  | dupctx (i j : ℕ) (mem : Memory)
  | signInit (i : ℕ) (mdname : Option String) (provkey : Option ℕ)
  | verifyInit (i : ℕ) (mdname : Option String) (provkey : Option ℕ)
  | update (i : ℕ) (data : Chunk) (mem : Memory)
  | final (i : ℕ)

namespace World

/-- A context after an init. -/
def setInit (w : World) (i : ℕ) (r : Bool × SigCtx) : World :=
  { w with ctxs := Function.update w.ctxs i (some r.2)
           given := if r.1 then Function.update w.given i [] else w.given }

/-- One call.  The handle of a new context is one that is not in use; the final
calls and the size query do not write to the context. -/
def step (w : World) : SigEvent → Option World
  | .setKey k key => some { w with keys := Function.update w.keys k key }
  | .newctx i =>
    match w.ctxs i with
    | some _ => none
    | none => some { w with ctxs := Function.update w.ctxs i (some pqmagicSigNewctx)
                            given := Function.update w.given i [] }
  | .freectx i => some { w with ctxs := Function.update w.ctxs i none }
  | .dupctx i j mem =>
    match w.ctxs i, w.ctxs j with
    | some src, none =>
      match pqmagicSigDupctx src mem with
      | none => some w
      | some dst => some { w with ctxs := Function.update w.ctxs j (some dst)
                                  given := Function.update w.given j (w.given i) }
    | _, _ => none
  | .signInit i mdname provkey =>
    (w.ctxs i).map fun ctx => w.setInit i (pqmagicSigDigestSignInit w.keys ctx mdname provkey)
  | .verifyInit i mdname provkey =>
    (w.ctxs i).map fun ctx => w.setInit i (pqmagicSigDigestVerifyInit w.keys ctx mdname provkey)
  | .update i data mem =>
    match w.ctxs i with
    | none => none
    | some ctx =>
      match pqmagicSigAccAppend ctx data mem with
      | none => none
      | some (ok, ctx) =>
        some { w with ctxs := Function.update w.ctxs i (some ctx)
                      given := if ok then Function.update w.given i (w.given i ++ data.1) else w.given }
  | .final i => (w.ctxs i).map fun _ => w

/-- An update reports success. -/
def Succeeds (w : World) (e : SigEvent) : Prop :=
  ∀ i data mem, e = .update i data mem → ∀ ctx ∈ w.ctxs i,
    ∃ ctx', pqmagicSigAccAppend ctx data mem = some (true, ctx')

end World

/-! ## the buffer -/

/-- The context holds the message `m`, in a block of the recorded capacity. -/
structure Collects (ctx : SigCtx) (m : Bytes) : Prop where
  len : ctx.accLen = m.length
  cap : ctx.accLen ≤ ctx.accCap
  max : ctx.accCap ≤ sizeMax
  null : ctx.acc = none → ctx.accCap = 0
  block : ∀ acc ∈ ctx.acc, acc.length = ctx.accCap ∧ acc.take ctx.accLen = m

theorem collects_newctx : Collects pqmagicSigNewctx [] where
  len := rfl
  cap := Nat.le_refl 0
  max := Nat.zero_le _
  null _ := rfl
  block := by simp [pqmagicSigNewctx]

theorem doubleCap_spec {rounds c : ℕ} (h : doubleCap need rounds ncap = some c)
    (hmax : ncap ≤ sizeMax) : need ≤ c ∧ ncap ≤ c ∧ c ≤ sizeMax := by
  induction rounds generalizing ncap with
  | zero =>
    unfold doubleCap at h
    split at h
    · contradiction
    · next hlt =>
      injection h with h
      omega
  | succ rounds ih =>
    unfold doubleCap at h
    split at h
    · split at h
      · contradiction
      · next hlt hguard =>
        have hdouble : ncap * 2 ≤ sizeMax := by
          simp only [sizeMax] at hguard ⊢
          omega
        have := ih h hdouble
        omega
    · next hlt =>
      injection h with h
      omega

/-- The loop does not run out of rounds: what it needs is at most `2 ^ 63`, or it
meets the check of the size first. -/
theorem doubleCap_succeeds {rounds : ℕ} (hneed : need ≤ 2 ^ 63)
    (hrounds : need ≤ ncap * 2 ^ rounds) : ∃ c, doubleCap need rounds ncap = some c := by
  induction rounds generalizing ncap with
  | zero =>
    refine ⟨ncap, ?_⟩
    rw [doubleCap, if_neg (by omega)]
  | succ rounds ih =>
    unfold doubleCap
    split
    · next hlt =>
      rw [if_neg (by simp only [sizeMax]; omega)]
      exact ih (by rw [Nat.pow_succ] at hrounds; rw [Nat.mul_assoc, Nat.mul_comm 2]; exact hrounds)
    · exact ⟨ncap, rfl⟩

theorem copyChunk_spec (ctx : SigCtx) {acc : Bytes} (data : Chunk) (hacc : ctx.acc = some acc)
    (hlen : ctx.accLen = m.length) (hblock : acc.length = ctx.accCap) (hm : acc.take ctx.accLen = m)
    (hmax : ctx.accCap ≤ sizeMax) (hfit : ctx.accLen + data.1.length ≤ ctx.accCap) :
    ∃ ctx', copyChunk ctx data (ctx.accLen + data.1.length) = some (true, ctx') ∧
      ctx'.key = ctx.key ∧ Collects ctx' (m ++ data.1) := by
  have hfront : (acc.take ctx.accLen ++ data.1).length = ctx.accLen + data.1.length := by
    rw [List.length_append, hm, hlen]
  refine ⟨{ ctx with
      acc := some (acc.take ctx.accLen ++ data.1 ++ acc.drop (ctx.accLen + data.1.length))
      accLen := ctx.accLen + data.1.length }, ?_, rfl, ?_⟩
  · rw [copyChunk, hacc]
    exact if_neg (by omega)
  · refine ⟨by simp [hlen], hfit, hmax, nofun, ?_⟩
    intro acc' hacc'
    obtain rfl := Option.mem_some_iff.mp hacc'
    constructor
    · rw [List.length_append, hfront, List.length_drop]
      show _ = ctx.accCap
      omega
    · show List.take (ctx.accLen + data.1.length) _ = _
      rw [← hfront, List.take_left, hm]

theorem length_realloc {acc : Option Bytes} {fresh : ℕ → UInt8}
    (h : (acc.getD []).length ≤ ncap) : (realloc acc ncap fresh).length = ncap := by
  simp only [realloc, List.length_append, List.length_map, List.length_range]
  omega

namespace Collects

variable {ctx : SigCtx} {m : Bytes} (h : Collects ctx m) (data : Chunk)
include h

/-- The length of the block is the capacity, also where there is none. -/
theorem length_getD : (ctx.acc.getD []).length = ctx.accCap := by
  cases hacc : ctx.acc with
  | none => exact (h.null hacc).symm
  | some acc => exact (h.block acc hacc).1

theorem take_getD : (ctx.acc.getD []).take ctx.accLen = m := by
  cases hacc : ctx.acc with
  | none =>
    have hcap := h.cap
    have hlen := h.len
    rw [h.null hacc] at hcap
    have hm : m.length = 0 := by omega
    rw [List.length_eq_zero_iff.mp hm]
    simp
  | some acc => exact (h.block acc hacc).2

/-- The context with a larger block collects the chunk. -/
theorem grown (fresh : ℕ → UInt8) (hneed : need = ctx.accLen + data.1.length)
    (hcap : ctx.accCap ≤ ncap) (hfit : need ≤ ncap) (hmax : ncap ≤ sizeMax) :
    ∃ ctx', copyChunk { ctx with acc := some (realloc ctx.acc ncap fresh), accCap := ncap } data need =
        some (true, ctx') ∧ ctx'.key = ctx.key ∧ Collects ctx' (m ++ data.1) := by
  have hold := h.length_getD
  have htake : (realloc ctx.acc ncap fresh).take ctx.accLen = m := by
    have hcap' := h.cap
    rw [realloc, List.take_append_of_le_length (by omega), h.take_getD]
  subst hneed
  exact copyChunk_spec { ctx with acc := some (realloc ctx.acc ncap fresh), accCap := ncap } data
    rfl h.len (length_realloc (by omega)) htake hmax hfit

/-- **One update**: it has a result; if it reports success, the chunk was
appended, and if not, no copy was made.  It fails only for want of memory, or if
the message would be longer than half of the address space. -/
theorem append (mem : Memory) :
    ∃ ok ctx', pqmagicSigAccAppend ctx data mem = some (ok, ctx') ∧ ctx'.key = ctx.key ∧
      (ok = true → Collects ctx' (m ++ data.1)) ∧
      (mem.isSome → m.length + data.1.length ≤ 2 ^ 63 → ok = true) := by
  have hlen := h.len
  have hcap := h.cap
  have hmax := h.max
  have hdata := data.2
  unfold pqmagicSigAccAppend
  split
  · next hzero =>
    refine ⟨true, ctx, rfl, rfl, fun _ => ?_, fun _ _ => rfl⟩
    rw [List.length_eq_zero_iff.mp hzero, List.append_nil]
    exact h
  · next hzero =>
    simp only
    split
    · next hwrap =>
      refine ⟨false, ctx, rfl, rfl, nofun, fun _ hsmall => ?_⟩
      simp only [sizeMax] at hwrap
      omega
    · next hwrap =>
      have hneed : (ctx.accLen + data.1.length) % (sizeMax + 1) = ctx.accLen + data.1.length := by
        simp only [sizeMax] at *
        omega
      rw [hneed]
      split
      · next hgrow =>
        have hstart : (if ctx.accCap ≠ 0 then ctx.accCap else 4096) ≤ sizeMax := by
          split
          · exact hmax
          · decide
        split
        · next hdouble =>
          refine ⟨false, ctx, rfl, rfl, nofun, fun _ hsmall => ?_⟩
          obtain ⟨c, hc⟩ : ∃ c, doubleCap (ctx.accLen + data.1.length) 64
              (if ctx.accCap ≠ 0 then ctx.accCap else 4096) = some c :=
            doubleCap_succeeds (by omega) (by split <;> omega)
          rw [hdouble] at hc
          contradiction
        · next ncap hdouble =>
          obtain ⟨hfit, hge, hle⟩ := doubleCap_spec hdouble hstart
          cases mem with
          | none => exact ⟨false, _, rfl, rfl, nofun, nofun⟩
          | some fresh =>
            obtain ⟨ctx', hcopy, hkey, hcol⟩ := h.grown data fresh rfl (by omega) hfit hle
            exact ⟨true, ctx', hcopy, hkey, fun _ => hcol, fun _ _ => rfl⟩
      · next hfit =>
        cases hacc : ctx.acc with
        | none =>
          rw [h.null hacc] at hfit
          omega
        | some acc =>
          obtain ⟨hblock, htake⟩ := h.block acc hacc
          obtain ⟨ctx', hcopy, hkey, hcol⟩ :=
            copyChunk_spec ctx data hacc hlen hblock htake hmax (by omega)
          exact ⟨true, ctx', hcopy, hkey, fun _ => hcol, fun _ _ => rfl⟩

end Collects

/-- A duplicate collects what its source did. -/
theorem Collects.dupctx {src dst : SigCtx} {mem : Memory} (h : Collects src m)
    (hdup : pqmagicSigDupctx src mem = some dst) : Collects dst m ∧ dst.key = src.key := by
  have hempty (hlen : src.accLen = 0) :
      Collects { src with acc := none, accLen := 0, accCap := 0 } m := by
    have hm : m.length = 0 := by
      rw [← h.len, hlen]
    exact ⟨hm.symm, Nat.le_refl 0, Nat.zero_le _, fun _ => rfl, nofun⟩
  unfold pqmagicSigDupctx at hdup
  split at hdup
  · next acc hacc =>
    obtain ⟨hblock, htake⟩ := h.block acc hacc
    split at hdup
    · next hpos =>
      split at hdup
      · contradiction
      · injection hdup with hdup
        subst hdup
        refine ⟨⟨h.len, Nat.le_refl _, Nat.le_trans h.cap h.max, nofun, ?_⟩, rfl⟩
        intro acc' hacc'
        obtain rfl := Option.mem_some_iff.mp hacc'
        have hle : (acc.take src.accLen).length = src.accLen := by
          have := h.cap
          rw [List.length_take]
          omega
        exact ⟨hle, by rw [List.take_take, Nat.min_self, htake]⟩
    · next hpos =>
      injection hdup with hdup
      subst hdup
      exact ⟨hempty (by omega), rfl⟩
  · next hacc =>
    injection hdup with hdup
    subst hdup
    have hcap := h.cap
    rw [h.null hacc] at hcap
    exact ⟨hempty (by omega), rfl⟩

/-- An init starts a new message, or changes nothing. -/
theorem digestInit_cases (fits : RawKey → Bool) (keys : ℕ → RawKey) (ctx : SigCtx)
    (mdname : Option String) (provkey : Option ℕ) :
    digestInit fits keys ctx mdname provkey = (false, ctx) ∨
      ∃ k, digestInit fits keys ctx mdname provkey =
        (true, { key := some k, acc := none, accLen := 0, accCap := 0 }) := by
  unfold digestInit
  cases provkey with
  | none => exact .inl rfl
  | some k =>
    simp only
    split
    · exact .inl rfl
    · split
      · exact .inl rfl
      · split
        · exact .inl rfl
        · exact .inr ⟨k, rfl⟩

/-! ## the message of a context -/

namespace World

/-- Every context holds the chunks given to it. -/
def Collected (w : World) : Prop := ∀ i, ∀ ctx ∈ w.ctxs i, Collects ctx (w.given i)

variable {w w' : World}

/-- Replacing one context and its message. -/
theorem Collected.update (h : w.Collected) (hc : Collects ctx m) :
    Collected { w with ctxs := Function.update w.ctxs i (some ctx)
                       given := Function.update w.given i m } := by
  intro j ctx' hctx'
  by_cases hj : j = i
  · subst hj
    simp only [Function.update_self, Option.mem_some_iff] at hctx' ⊢
    exact hctx' ▸ hc
  · simp only [Function.update_of_ne hj] at hctx' ⊢
    exact h j ctx' hctx'

/-- A context may be replaced by one that holds the same message. -/
theorem Collected.replace (h : w.Collected) (hc : Collects ctx (w.given i)) :
    Collected { w with ctxs := Function.update w.ctxs i (some ctx) } := by
  simpa using h.update (i := i) hc

theorem Collected.setInit (h : w.Collected) {fits : RawKey → Bool}
    {mdname : Option String} {provkey : Option ℕ} (hctx : w.ctxs i = some ctx) :
    (w.setInit i (digestInit fits w.keys ctx mdname provkey)).Collected := by
  obtain hr | ⟨k, hr⟩ := digestInit_cases fits w.keys ctx mdname provkey
  · rw [hr]
    exact h.replace (h i ctx hctx)
  · rw [hr]
    exact h.update ⟨rfl, Nat.le_refl 0, Nat.zero_le _, fun _ => rfl, nofun⟩

/-- **One call** keeps the messages, if the updates succeed. -/
theorem Collected.step {e : SigEvent} (h : w.Collected) (hok : w.Succeeds e)
    (hstep : w.step e = some w') : w'.Collected := by
  cases e with
  | setKey k key =>
    injection hstep with hstep
    subst hstep
    exact h
  | newctx i =>
    simp only [World.step] at hstep
    split at hstep
    · contradiction
    · injection hstep with hstep
      subst hstep
      exact h.update collects_newctx
  | freectx i =>
    injection hstep with hstep
    subst hstep
    intro j ctx hctx
    by_cases hj : j = i
    · subst hj
      simp at hctx
    · simp only [Function.update_of_ne hj] at hctx
      exact h j ctx hctx
  | dupctx i j mem =>
    simp only [World.step] at hstep
    split at hstep
    · next src hsrc _ =>
      split at hstep
      · injection hstep with hstep
        subst hstep
        exact h
      · next dst hdup =>
        injection hstep with hstep
        subst hstep
        exact h.update ((h i src hsrc).dupctx hdup).1
    · contradiction
  | signInit i mdname provkey | verifyInit i mdname provkey =>
    obtain ⟨ctx, hctx, rfl⟩ := Option.map_eq_some_iff.mp hstep
    exact h.setInit hctx
  | update i data mem =>
    simp only [World.step] at hstep
    split at hstep
    · contradiction
    · next ctx hctx =>
      obtain ⟨ok, ctx', hr, -, hcol, -⟩ := (h i ctx hctx).append data mem
      obtain ⟨ctx'', hr'⟩ := hok i data mem rfl ctx hctx
      rw [hr] at hr' hstep
      simp only [Option.some.injEq, Prod.mk.injEq] at hr' hstep
      obtain ⟨rfl, rfl⟩ := hr'
      subst hstep
      exact h.update (hcol rfl)
  | final i =>
    obtain ⟨_, -, rfl⟩ := Option.map_eq_some_iff.mp hstep
    exact h

/-- No context exists. -/
def Fresh (w : World) : Prop := ∀ i, w.ctxs i = none

/-- **Runs**: where every update succeeded, each context holds the chunks given to
it since its last init. -/
theorem collected_run {es : List SigEvent} (hw : w.Fresh) (hmeets : Meets World.step Succeeds w es)
    (hrun : run World.step w es = some w') : w'.Collected :=
  invariant (fun _ _ _ h hok hstep => h.step hok hstep)
    (fun i _ hctx => absurd ((hw i).symm.trans hctx) nofun) hmeets hrun

end World

/-! ## streaming and one-shot calls -/

/-- A signature of a message in one call. -/
def oneShotSign (b : Backend) (key : RawKey) (m : Bytes) (sigsize : ℕ) : Option (ℕ × Option Bytes) :=
  if key.skLen ≠ Alg.mldsa44.skLen ∨ sigsize < mldsa44SigLen then none
  else (b.sm3 m).bind fun digest =>
    (b.signature digest key.sk.1).map fun sig => (mldsa44SigLen, some sig)

/-- The verification of a message in one call. -/
def oneShotVerify (b : Backend) (key : RawKey) (m sig : Bytes) : Bool :=
  (b.sm3 m).any fun digest => b.verify sig digest key.pk.1

/-- The final calls treat the message as the one-shot functions do, and with a
secret key the size can be asked for. -/
structure Streams (keys : ℕ → RawKey) (ctx : SigCtx) (k : ℕ) (m : Bytes) : Prop where
  sign : ∀ b sigsize, pqmagicSigDigestSignFinal b keys ctx (some sigsize) =
    oneShotSign b (keys k) m sigsize
  verify : ∀ b sig, pqmagicSigDigestVerifyFinal b keys ctx sig = oneShotVerify b (keys k) m sig
  size : (keys k).skLen = Alg.mldsa44.skLen → ∀ b,
    pqmagicSigDigestSignFinal b keys ctx none = some (mldsa44SigLen, none)

theorem Collects.finalInput (h : Collects ctx m)
    (hk : ctx.key = some k) : ctx.finalInput = if m = [] then none else some (k, m) := by
  unfold SigCtx.finalInput
  rw [hk]
  cases hacc : ctx.acc with
  | none =>
    have hm := h.take_getD
    rw [hacc] at hm
    simp only [Option.getD_none, List.take_nil] at hm
    exact (if_pos hm.symm).symm
  | some acc =>
    obtain ⟨-, htake⟩ := h.block acc hacc
    have hlen : ctx.accLen = 0 ↔ m = [] := by
      rw [h.len, List.length_eq_zero_iff]
    simp only [hlen, htake]

/-- A context streams exactly the messages that are not empty. -/
theorem Collects.streams_iff {keys : ℕ → RawKey}
    (h : Collects ctx m) (hk : ctx.key = some k) : Streams keys ctx k m ↔ m ≠ [] := by
  have hin := h.finalInput hk
  constructor
  · rintro hs rfl
    -- a verifier that accepts everything tells the two apart
    have hv := hs.verify ⟨some, fun _ _ => none, fun _ _ _ => true⟩ []
    simp [pqmagicSigDigestVerifyFinal, hin, oneShotVerify] at hv
  · intro hm
    rw [if_neg hm] at hin
    constructor
    · intro b sigsize
      unfold pqmagicSigDigestSignFinal oneShotSign
      rw [hin]
      by_cases hsk : (keys k).skLen = Alg.mldsa44.skLen
      · by_cases hsize : sigsize < mldsa44SigLen
        · simp [hsize]
        · cases hd : b.sm3 m <;> simp [hsk, hsize, hd]
      · simp [hsk]
    · intro b sig
      unfold pqmagicSigDigestVerifyFinal oneShotVerify
      rw [hin]
      cases hd : b.sm3 m <;> simp [hd]
    · intro hsk b
      simp [pqmagicSigDigestSignFinal, hin, hsk]

/-- **Streaming signatures.**  After every run of the calls whose updates
succeed, the buffer of every context that was initialised has at least its
length, and its final calls and size queries are those of the one-shot functions
on the chunks given since the last init, exactly if these are not all empty. -/
theorem streaming_iff {w' : World} {es : List SigEvent} (hw : w.Fresh)
    (hmeets : Meets World.step World.Succeeds w es) (hrun : run World.step w es = some w') {i k : ℕ} (hctx : w'.ctxs i = some ctx) (hk : ctx.key = some k) :
    ctx.accLen ≤ ctx.accCap ∧ (∀ acc ∈ ctx.acc, acc.length = ctx.accCap) ∧
      (Streams w'.keys ctx k (w'.given i) ↔ w'.given i ≠ []) := by
  have hcol := World.collected_run hw hmeets hrun i ctx hctx
  exact ⟨hcol.cap, fun acc hacc => (hcol.block acc hacc).1, hcol.streams_iff hk⟩

/-- A key with both halves of ML-DSA-44. -/
def signingKey : RawKey :=
  { pqmagicKmNew with pkLen := Alg.mldsa44.pkLen, skLen := Alg.mldsa44.skLen
                      oidText := Alg.mldsa44.oid }

/-- A process with that key and no context. -/
def freshWorld : World where
  keys _ := signingKey
  ctxs _ := none
  given _ := []

/-- A context, initialised for signatures. -/
def signCtx : SigCtx := { pqmagicSigNewctx with key := some 0 }

/-- The process with that context. -/
def signWorld : World := { freshWorld with ctxs := Function.update (fun _ => none) 0 (some signCtx) }

theorem signInit_run :
    run World.step freshWorld [.newctx 0, .signInit 0 none (some 0)] = some signWorld := by
  simp [run, World.step, freshWorld, World.setInit, pqmagicSigDigestSignInit, digestInit, signingKey,
    signWorld, signCtx, pqmagicSigNewctx]

/-- An update with enough memory. -/
theorem World.step_update {i : ℕ} (data : Chunk) (mem : ℕ → UInt8)
    (hctx : w.ctxs i = some ctx) (hcol : Collects ctx (w.given i))
    (hsmall : (w.given i).length + data.1.length ≤ 2 ^ 63) :
    ∃ w' ctx', w.step (.update i data (some mem)) = some w' ∧
      w.Succeeds (.update i data (some mem)) ∧ w'.ctxs i = some ctx' ∧ ctx'.key = ctx.key ∧
      w'.given i = w.given i ++ data.1 ∧ Collects ctx' (w'.given i) ∧
      ∀ j ≠ i, w'.ctxs j = w.ctxs j ∧ w'.given j = w.given j := by
  obtain ⟨ok, ctx', hr, hkey, hnext, hok⟩ := hcol.append data (some mem)
  obtain rfl := hok rfl hsmall
  refine ⟨{ w with
      ctxs := Function.update w.ctxs i (some ctx')
      given := Function.update w.given i (w.given i ++ data.1) }, ctx',
    by simp only [World.step, hctx, hr, if_true], ?_, by simp, hkey, by simp,
    by simpa using hnext rfl, fun j hj => by simp [hj]⟩
  rintro j data' mem' ⟨rfl, rfl, rfl⟩ ctx'' hctx''
  obtain rfl := Option.some.inj (hctx.symm.trans hctx'')
  exact ⟨ctx', hr⟩

/-- A duplicate with enough memory. -/
theorem World.step_dupctx {i j : ℕ} {src : SigCtx} (mem : ℕ → UInt8)
    (hsrc : w.ctxs i = some src) (hfree : w.ctxs j = none) (hcol : Collects src (w.given i)) :
    ∃ w' dst, w.step (.dupctx i j (some mem)) = some w' ∧ w'.ctxs j = some dst ∧
      dst.key = src.key ∧ w'.given j = w.given i ∧ Collects dst (w'.given j) := by
  obtain ⟨dst, hdup⟩ : ∃ dst, pqmagicSigDupctx src (some mem) = some dst := by
    unfold pqmagicSigDupctx
    split
    · split
      · exact ⟨_, rfl⟩
      · exact ⟨_, rfl⟩
    · exact ⟨_, rfl⟩
  obtain ⟨hdst, hkey⟩ := hcol.dupctx hdup
  exact ⟨{ w with
      ctxs := Function.update w.ctxs j (some dst)
      given := Function.update w.given j (w.given i) }, dst,
    by simp only [World.step, hsrc, hfree, hdup], by simp, hkey, by simp, by simpa using hdst⟩

/-- A chunk of one byte. -/
def oneByte (b : UInt8) : Chunk := ⟨[b], by simp [sizeMax]⟩

/-- A chunk, a duplicate of the context, and a second chunk for the duplicate. -/
def twoChunks : List SigEvent :=
  [.newctx 0, .signInit 0 none (some 0), .update 0 (oneByte 7) (some fun _ => 0),
    .dupctx 0 1 (some fun _ => 0), .update 1 (oneByte 8) (some fun _ => 0)]

theorem streaming_two_chunks :
    ∃ w' ctx, run World.step freshWorld twoChunks = some w' ∧ w'.ctxs 1 = some ctx ∧
      w'.given 1 = [7, 8] ∧ Streams w'.keys ctx 0 [7, 8] := by
  obtain ⟨u, hu, h⟩ := run_cons_eq_some.mp signInit_run
  obtain ⟨v, hv, h⟩ := run_cons_eq_some.mp h
  obtain rfl := Option.some.inj h
  have hcol : Collects signCtx [] :=
    ⟨rfl, Nat.le_refl 0, Nat.zero_le _, fun _ => rfl, by simp [signCtx, pqmagicSigNewctx]⟩
  have hctx : signWorld.ctxs 0 = some signCtx ∧ signWorld.ctxs 1 = none := by simp [signWorld]
  obtain ⟨w₁, ctx₁, h₁, hok₁, hctx₁, hkey₁, hgiven₁, hcol₁, hother₁⟩ :=
    World.step_update (oneByte 7) (fun _ => 0) hctx.1 hcol (by decide)
  obtain ⟨w₂, ctx₂, h₂, hctx₂, hkey₂, hgiven₂, hcol₂⟩ :=
    World.step_dupctx (fun _ => 0) hctx₁ ((hother₁ 1 (by decide)).1.trans hctx.2) hcol₁
  have hseven : w₂.given 1 = [7] := by
    rw [hgiven₂, hgiven₁]
    rfl
  obtain ⟨w₃, ctx₃, h₃, hok₃, hctx₃, hkey₃, hgiven₃, -⟩ :=
    World.step_update (oneByte 8) (fun _ => 0) hctx₂ hcol₂ (by rw [hseven]; decide)
  rw [hseven] at hgiven₃
  have hrun : run World.step freshWorld twoChunks = some w₃ := by
    simp only [twoChunks, run, hu, hv, h₁, h₂, h₃]
  have hmeets : Meets World.step World.Succeeds freshWorld twoChunks := by
    simp only [twoChunks, Meets, hu, hv, h₁, h₂, h₃]
    exact ⟨by simp [World.Succeeds], by simp [World.Succeeds], hok₁, by simp [World.Succeeds], hok₃,
      trivial⟩
  have hkey : ctx₃.key = some 0 := by
    rw [hkey₃, hkey₂, hkey₁]
    rfl
  have hstream := (streaming_iff (fun _ => rfl) hmeets hrun hctx₃ hkey).2.2
  rw [hgiven₃] at hstream
  exact ⟨w₃, ctx₃, hrun, hctx₃, hgiven₃, hstream.mpr (by simp)⟩

/-- A context that was initialised and given nothing: the final call refuses a
signature that the one-shot function accepts, and the size cannot be asked for. -/
theorem empty_message_refused :
    ∃ es w' ctx b, run World.step freshWorld es = some w' ∧ w'.ctxs 0 = some ctx ∧
      ctx.key = some 0 ∧ w'.given 0 = [] ∧
      pqmagicSigDigestVerifyFinal b w'.keys ctx [] = false ∧
      oneShotVerify b (w'.keys 0) [] [] = true ∧
      pqmagicSigDigestSignFinal b w'.keys ctx none = none := by
  exact ⟨_, _, signCtx, ⟨some, fun _ _ => none, fun _ _ _ => true⟩, signInit_run, by simp [signWorld], rfl, rfl,
    rfl, rfl, rfl⟩

end Tlcp.Provider
