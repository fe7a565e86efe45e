import Mathlib.Algebra.Group.Nat.Defs
import Mathlib.Data.List.Basic

-- A byte slice. Its length is the length of the list, its contents never alias another slice.
abbrev Bytes := List UInt8

namespace Bytes

-- `s[lo:hi]`. Bounds out of range are a run-time panic, which `none` stands for.
def slice (s : Bytes) (lo hi : Nat) : Option Bytes :=
  if lo ≤ hi ∧ hi ≤ s.length then some ((s.take hi).drop lo) else none

-- `copy(dst, src)`: the overlap of the two lengths is copied, the rest of `dst` stays. The source
-- is read before the destination is written, as Go promises for overlapping slices.
def copy (dst src : Bytes) : Bytes :=
  src.take dst.length ++ dst.drop src.length

end Bytes

-- Reading past the end of the slice is a run-time panic.
def readUint16 : Bytes → Option UInt16
  | b₀ :: b₁ :: _ => some ((b₀.toUInt16 <<< 8) ||| b₁.toUInt16)
  | _             => none
