import Tlcp.Lib.Loop

/-!
# Rejection

A sampler reads groups of bytes from a buffer, takes the candidates out of each
group and keeps those in range, up to the number of values it is to give
(`scan`).  Its values are among those it keeps (`scan_spec`), and on bytes of
which it keeps every candidate it gives all that were asked for (`length_scan`).
-/

/-- What a rejection sampler does with a group of bytes: the candidates in it,
and the value of one that is kept. -/
structure Rejection (α : Type*) where
  size : ℕ
  group : (ℕ → ℕ) → List ℕ
  keep : ℕ → Option α

namespace Rejection

open Loop

variable {α : Type*} (r : Rejection α)

/-- `if (… && ctr < len) a[ctr++] = …`. -/
def push (len : ℕ) (a : List α) (t : ℕ) : List α := match r.keep t with
  | some x => if a.length < len then a ++ [x] else a
  | none => a

/-- `while (ctr < len && pos + size <= buflen)`, for at most `n` rounds; there
are no more rounds than bytes. -/
def scan (len : ℕ) (buf : ℕ → ℕ) (buflen : ℕ) : ℕ → ℕ → List α → List α
  | 0, _, a => a
  | n + 1, pos, a =>
    if a.length < len ∧ pos + r.size ≤ buflen then
      scan len buf buflen n (pos + r.size) ((r.group fun j => buf (pos + j)).foldl (r.push len) a)
    else a

variable {r} {P : α → Prop} {len buflen n pos : ℕ} {buf : ℕ → ℕ} {a : List α}

theorem foldl_push_spec {ts : List ℕ} (hkeep : ∀ t ∈ ts, ∀ x, r.keep t = some x → P x)
    (ha : ∀ x ∈ a, P x) : ∀ x ∈ ts.foldl (r.push len) a, P x := by
  induction ts generalizing a with
  | nil => exact ha
  | cons t ts ih =>
    refine ih (fun t ht => hkeep t (List.mem_cons_of_mem _ ht)) ?_
    unfold push
    split
    · next x hx =>
      split
      · intro y hy
        rcases List.mem_append.mp hy with hy | hy
        · exact ha y hy
        · exact List.mem_singleton.mp hy ▸ hkeep t List.mem_cons_self x hx
      · exact ha
    · exact ha

/-- A sampler gives only values it keeps. -/
theorem scan_spec (hkeep : ∀ pos, ∀ t ∈ r.group fun j => buf (pos + j), ∀ x, r.keep t = some x → P x)
    (ha : ∀ x ∈ a, P x) : ∀ x ∈ r.scan len buf buflen n pos a, P x := by
  induction n generalizing pos a with
  | zero => exact ha
  | succ n ih =>
    unfold scan
    split
    · exact ih (foldl_push_spec (hkeep pos) ha)
    · exact ha

theorem length_foldl_push {ts : List ℕ} (hts : ∀ t ∈ ts, (r.keep t).isSome) (ha : a.length ≤ len) :
    (ts.foldl (r.push len) a).length = min len (a.length + ts.length) := by
  induction ts generalizing a with
  | nil => simp [ha]
  | cons t ts ih =>
    obtain ⟨x, hx⟩ := Option.isSome_iff_exists.mp (hts t List.mem_cons_self)
    have hrest : ∀ t ∈ ts, (r.keep t).isSome := fun t ht => hts t (List.mem_cons_of_mem _ ht)
    rw [List.foldl_cons, push, hx]
    simp only
    split
    · next hlt =>
      rw [ih hrest (by rw [List.length_append]; exact hlt)]
      simp only [List.length_append, List.length_cons, List.length_nil]
      omega
    · rw [ih hrest ha, List.length_cons]
      omega

/-- A sampler that keeps every candidate of a buffer with enough groups. -/
theorem length_scan {g m : ℕ} (hkept : ∀ pos, ∀ t ∈ r.group fun j => buf (pos + j), (r.keep t).isSome)
    (hg : ∀ pos, (r.group fun j => buf (pos + j)).length = g) (ha : a.length ≤ len)
    (hm : len ≤ a.length + g * m) (hmn : m ≤ n) (hbuf : pos + r.size * m ≤ buflen) :
    (r.scan len buf buflen n pos a).length = len := by
  induction m generalizing n pos a with
  | zero =>
    have hlen : a.length = len := by omega
    cases n with
    | zero => exact hlen
    | succ n => rw [scan, if_neg (by omega), hlen]
  | succ m ih =>
    obtain ⟨n, rfl⟩ : ∃ k, n = k + 1 := ⟨n - 1, by omega⟩
    rw [Nat.mul_succ] at hm hbuf
    rw [scan]
    split
    · have hlen := length_foldl_push (hkept pos) ha
      rw [hg pos] at hlen
      exact ih (by omega) (by omega) (by omega) (by omega)
    · omega

/-- The same when every candidate has one value. -/
theorem scan_const {v : α} {g m : ℕ} (hkeep : ∀ pos, ∀ t ∈ r.group fun j => buf (pos + j), r.keep t = some v)
    (hg : ∀ pos, (r.group fun j => buf (pos + j)).length = g) (hm : len ≤ g * m) (hmn : m ≤ n)
    (hbuf : r.size * m ≤ buflen) :
    (r.scan len buf buflen n 0 []).length = len ∧ ∀ x ∈ r.scan len buf buflen n 0 [], x = v := by
  refine ⟨length_scan (fun pos t ht => ?_) hg (Nat.zero_le _) ?_ hmn ?_, scan_spec (fun pos t ht x hx => ?_)
    (by simp)⟩
  · rw [hkeep pos t ht]
    rfl
  · rwa [List.length_nil, Nat.zero_add]
  · rwa [Nat.zero_add]
  · exact (Option.some.inj ((hkeep pos t ht).symm.trans hx)).symm

/-! ## squeezing more -/

section

variable {σ : Type*} {samples : σ → List α} {next : σ → σ} {fuel fuel' : ℕ} {s : σ} {l l' : List α}

/-- `while (ctr < len)` with another buffer in every round. -/
def fill (len : ℕ) (samples : σ → List α) (next : σ → σ) (fuel : ℕ) (s : σ) : Option (List α) :=
  repeatUntil (fun s => some (if (samples s).length < len then .inl (next s) else .inr (samples s))) fuel s

theorem fill_spec (h : fill len samples next fuel s = some l) (hs : ∀ x ∈ samples s, P x)
    (hnext : ∀ s, (∀ x ∈ samples s, P x) → ∀ x ∈ samples (next s), P x) :
    len ≤ l.length ∧ ∀ x ∈ l, P x := by
  refine repeatUntil_inv (P := fun s => ∀ x ∈ samples s, P x)
    (Q := fun l => len ≤ l.length ∧ ∀ x ∈ l, P x) ?_ ?_ hs h
  · intro s s' hs hstep
    simp only [Option.some.injEq] at hstep
    split at hstep
    · exact Sum.inl.inj hstep ▸ hnext s hs
    · simp at hstep
  · intro s l hs hstep
    simp only [Option.some.injEq] at hstep
    split at hstep
    · simp at hstep
    · next hlen =>
      obtain rfl := Sum.inr.inj hstep
      exact ⟨Nat.not_lt.mp hlen, hs⟩

/-- The values do not depend on the bound on the rounds. -/
theorem fill_unique (h : fill len samples next fuel s = some l) (h' : fill len samples next fuel' s = some l') :
    l = l' :=
  repeatUntil_unique h h'

theorem fill_of_full (h : (samples s).length = len) : fill len samples next (fuel + 1) s = some (samples s) := by
  simp [fill, repeatUntil, h]

end

end Rejection
