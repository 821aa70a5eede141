import Tlcp.Lib.BitPack
import Tlcp.Lib.Butterfly

/-!
# Packed

Arrays whose entries are mapped to small integers and packed with a codec
(`packArray`), and arrays whose entries are stored one behind the other, each
in the same number of bytes (`packVec`).  An array reads back when its entries
do, and when the codec is tight and the maps are inverse the other way round,
every buffer is what its array packs to.
-/

namespace Packed

open Octets Butterfly BitPack

variable {α : Type*} [Zero α] {n : ℕ}

/-! ## small integers -/

/-- Pack the integers that `f` makes of the entries. -/
def packArray (c : Codec) (f : α → ℕ) (a : Fin n → α) : Bytes := pack c (n / c.g) fun i => f (cell a i)

/-- Unpack integers and make entries of them. -/
def unpackArray (c : Codec) (f : ℕ → α) (b : Bytes) : Fin n → α := fun i => f (unpack c b i)

section

variable {c : Codec} {f : α → ℕ} {f' : ℕ → α} {a : Fin n → α}

@[simp] theorem length_packArray : (packArray c f a).length = c.m * (n / c.g) := length_pack

/-- The integer of each entry reads back. -/
theorem unpackArray_packArray_apply (hg : c.g ∣ n) (hf : ∀ i, f (a i) < c.bound) (rest : Bytes) (i : Fin n) :
    unpackArray c f' (packArray c f a ++ rest) i = f' (f (a i)) := by
  have hn : c.g * (n / c.g) = n := Nat.mul_div_cancel' hg
  rw [unpackArray, packArray, unpack_pack _ rest (by rw [hn]; exact i.isLt), cell_val]
  intro j hj
  rw [hn] at hj
  rw [cell_of_lt a hj]
  exact hf _

/-- An array reads back when the maps are inverse on its entries. -/
theorem unpackArray_packArray (hg : c.g ∣ n) (hf : ∀ i, f (a i) < c.bound ∧ f' (f (a i)) = a i)
    (rest : Bytes) : unpackArray c f' (packArray c f a ++ rest) = a := by
  funext i
  rw [unpackArray_packArray_apply hg (fun i => (hf i).1), (hf i).2]

/-- Every buffer is what its array packs to, for a tight codec. -/
theorem packArray_unpackArray (hc : c.Tight) (hg : c.g ∣ n) (hn : 0 < c.g)
    (hf : ∀ t < c.bound, f (f' t) = t) {b : Bytes} (hb : c.m * (n / c.g) ≤ b.length) :
    packArray c f (unpackArray c f' b : Fin n → α) = b.take (c.m * (n / c.g)) := by
  rw [packArray]
  refine pack_unpack hc hb fun i hi => ?_
  rw [Nat.mul_div_cancel' hg] at hi
  rw [cell_of_lt _ hi, unpackArray, hf _ (unpack_lt hc hn b i)]

end

/-! ## entries of one size -/

/-- Entries one after the other. -/
def packVec (f : α → Bytes) (v : Fin n → α) : Bytes := (List.range n).flatMap fun i => f (cell v i)

/-- Entries of `size` bytes each. -/
def unpackVec (f : Bytes → α) (size : ℕ) (b : Bytes) : Fin n → α := fun i => f (b.drop (size * i))

section

variable {size : ℕ} {f : α → Bytes} {f' : Bytes → α} {v : Fin n → α}

theorem length_packVec (hf : ∀ a, (f a).length = size) : (packVec f v).length = size * n :=
  length_flatMap_range fun _ _ => hf _

/-- Each entry's bytes stand at its place. -/
theorem drop_packVec (hf : ∀ a, (f a).length = size) (rest : Bytes) (i : Fin n) :
    ∃ tail, (packVec f v ++ rest).drop (size * i) = f (v i) ++ tail := by
  obtain ⟨tail, htail⟩ := drop_flatMap_range (f := fun i => f (cell v i)) (fun i _ => hf _) i.isLt
  have hle : size * i.val ≤ (packVec f v).length := by
    rw [length_packVec hf]
    exact Nat.mul_le_mul_left _ i.isLt.le
  refine ⟨tail ++ rest, ?_⟩
  rw [List.drop_append_of_le_length hle, packVec, htail, cell_val, List.append_assoc]

theorem unpackVec_packVec (hf : ∀ a, (f a).length = size) (h : ∀ i rest, f' (f (v i) ++ rest) = v i)
    (rest : Bytes) : unpackVec f' size (packVec f v ++ rest) = v := by
  funext i
  obtain ⟨tail, htail⟩ := drop_packVec hf rest i
  rw [unpackVec, htail, h]

theorem packVec_unpackVec (hf : ∀ b, size ≤ b.length → f (f' b) = b.take size) {b : Bytes}
    (hb : size * n ≤ b.length) :
    packVec f (unpackVec f' size b : Fin n → α) = b.take (size * n) := by
  have hinit : ∀ m ≤ n, (List.range m).flatMap
      (fun i => f (cell (unpackVec f' size b : Fin n → α) i)) = b.take (size * m) := by
    intro m hm
    induction m with
    | zero => simp
    | succ m ih =>
      have hle := Nat.mul_le_mul_left size hm
      rw [Nat.mul_succ] at hle
      rw [List.range_succ, List.flatMap_append, ih (by omega), List.flatMap_singleton,
        cell_of_lt _ (by omega), unpackVec, hf _ (by simp only [List.length_drop]; omega),
        Nat.mul_succ, List.take_add]
  exact hinit n le_rfl

end

end Packed
