import Tlcp.Lib.Octets

/-!
# Tlcp.Pqmagic.Xof

What the schemes see of the hash functions of PQMagic.  Their outputs are arbitrary functions of the
inputs; only how a call and the next one relate is fixed by the build.
-/

namespace Tlcp

open Octets

/-- The two builds: with `USE_SHAKE`, an output is a prefix of a stream; without,
`sm3_extended` is called with the length it is to give. -/
inductive Xof where
  | shake (shake128 shake256 : Bytes → ℕ → UInt8)
  | sm3 (sm3Extended : ℕ → Bytes → ℕ → UInt8)

namespace Xof

/-- The bytes that a call of `shake256` or `sm3_extended` for `n` of them gives. -/
def output : Xof → ℕ → Bytes → ℕ → UInt8
  | shake _ s, _, input => s input
  | sm3 f, n, input => f n input

/-- A call of `shake256` or `sm3_extended` for `n` bytes. -/
def hash (x : Xof) (n : ℕ) (input : Bytes) : Bytes := (List.range n).map (x.output n input)

/-- Bytes squeezed after `skip` of them; `sm3_extended` starts again, with the
number of the call behind the input. -/
def squeeze256 : Xof → Bytes → ℕ → ℕ → ℕ → ℕ → ℕ
  | shake _ s, input, _, skip, _, i => (s input (skip + i)).toNat
  | sm3 f, input, call, _, n, i => (f n (input ++ [UInt8.ofNat call]) i).toNat

/-- The same with `shake128`. -/
def squeeze128 : Xof → Bytes → ℕ → ℕ → ℕ → ℕ → ℕ
  | shake s _, input, _, skip, _, i => (s input (skip + i)).toNat
  | sm3 f, input, call, _, n, i => (f n (input ++ [UInt8.ofNat call]) i).toNat

end Xof

end Tlcp
