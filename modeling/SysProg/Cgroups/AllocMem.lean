import Mathlib.Tactic

/-! Touching every page of a block of memory that has been allocated. -/

namespace SysProg.Cgroups.AllocMem

/-- `INT_MAX`. -/
def intMax : Nat := 2 ^ 31 - 1

/-- A block from a `malloc` that has succeeded, with the bytes that happen to be in it. -/
abbrev Block (blockSize : UInt64) := Vector UInt8 blockSize.toNat

/-- How the loop over a block ends. -/
inductive Ending where
  | done
  /-- The next index is no `int`, for which C defines no behaviour. -/
  | overflow
  deriving DecidableEq, Repr

/-- What the loop over a block does. -/
structure Touching (blockSize : UInt64) where
  block : Block blockSize
  /-- The offsets that are written, one after the other. -/
  touched : List Nat
  ending : Ending

/-- `for (int k = 0; k < blockSize; k += 1024) p[k] = 0;`, from an index on. -/
def touchLoop {blockSize : UInt64} (block : Block blockSize) (k : Nat) : Touching blockSize :=
  -- The index is never negative, so it is the same number when it becomes a `size_t`.
  if k < blockSize.toNat then
    let block := block.setIfInBounds k 0
    if k + 1024 ≤ intMax then
      let later := touchLoop block (k + 1024)
      { later with touched := k :: later.touched }
    else ⟨block, [k], .overflow⟩
  else ⟨block, [], .done⟩
termination_by blockSize.toNat - k
decreasing_by omega

/-- What `allocMem` does with a block as soon as it has it. -/
def touch {blockSize : UInt64} (block : Block blockSize) : Touching blockSize :=
  touchLoop block 0

end SysProg.Cgroups.AllocMem
