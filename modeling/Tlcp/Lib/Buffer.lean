import Mathlib.Data.List.TakeDrop
import Tlcp.Lib.Octets

/-!
# Tlcp.Lib.Buffer

Buffers of a fixed size that are written at offsets.  `write` is a `memcpy` into
the buffer and `slice` what a `memcpy` out of it reads; the lemmas say what a
slice sees of a write.
-/

namespace Octets.Buf

variable {n : ℕ} (b : Buf n) (off : ℕ) (d : Bytes)

/-- Copy `d` into the buffer, from `off` on; what does not fit is cut off. -/
def write : Buf n := ⟨(b.1.take off ++ d ++ b.1.drop (off + d.length)).take n, by
    have := b.2
    simp
    omega⟩

/-- The `len` bytes from `off` on. -/
def slice (len : ℕ) : Bytes := (b.1.drop off).take len

variable {b off d}

theorem write_val (h : off + d.length ≤ n) :
    (b.write off d).1 = b.1.take off ++ d ++ b.1.drop (off + d.length) := by
  have := b.2
  refine List.take_of_length_le ?_
  simp
  omega

/-- The bytes just written. -/
theorem slice_write (h : off + d.length ≤ n) : (b.write off d).slice off d.length = d := by
  have hoff : (b.1.take off).length = off := by
    have := b.2
    simp
    omega
  rw [slice, write_val h, List.append_assoc, List.drop_left' hoff, List.take_left]

/-- A write changes nothing exactly if its bytes are there already. -/
theorem write_eq_self_iff (h : off + d.length ≤ n) :
    b.write off d = b ↔ b.slice off d.length = d := by
  constructor
  · intro heq
    rw [← heq]
    exact slice_write h
  · intro hd
    refine Subtype.ext ?_
    conv_rhs => rw [← List.take_append_drop off b.1, ← List.take_append_drop d.length (b.1.drop off)]
    rw [write_val h, ← slice, hd, List.drop_drop, List.append_assoc]

end Octets.Buf
