import Mathlib.Tactic

/-! The numbers of C programs, which have 32 bits. -/

namespace SysProg

/-- What a number becomes in an `int`, which wraps around when an operation overflows. -/
def int (number : Int) : Int :=
  number.bmod (2 ^ 32)

/-- A number in the range of an `int` is what it looks like. -/
theorem int_of_fits {number : Int} (low : -2 ^ 31 ≤ number) (high : number < 2 ^ 31) :
    int number = number := by
  rw [int, Int.bmod_def]
  norm_num
  split <;> omega

/-- A number that has just passed the top of the range looks negative. -/
theorem int_of_ge {number : Int} (low : 2 ^ 31 ≤ number) (high : number < 3 * 2 ^ 31) :
    int number = number - 2 ^ 32 := by
  rw [int, Int.bmod_def]
  norm_num
  split <;> omega

end SysProg
