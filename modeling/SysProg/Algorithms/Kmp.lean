import SysProg.Lib.Borders
import SysProg.Lib.CInt
import SysProg.Lib.Indexed
import SysProg.Lib.Loop

/-! The search for a word in a text that never goes back in the text. -/

namespace SysProg.Algorithms.Kmp

open Indexed

/-- The test of both loops: whether `j` is -1, or the two letters are the same. -/
def goesOn (text needle : List UInt8) (i j : Int) : Option Bool :=
  if j = -1 then some true
  else do
    let letter ← get text i
    let wanted ← get needle j
    return decide (letter = wanted)

/-- The variables of the first loop. -/
structure Filling where
  next : List Int
  i : Int
  j : Int

/-- The loop that fills `next`. -/
def fill (needle : List UInt8) (n : Int) : Loop Filling where
  more state := state.i < n - 1
  body state := do
    if ← goesOn needle needle state.i state.j then
      let next ← put state.next (state.i + 1) (state.j + 1)
      return ⟨next, state.i + 1, state.j + 1⟩
    else
      return { state with j := ← get state.next state.j }

/-- The variables of the second loop. -/
structure Searching where
  i : Int
  j : Int

/-- The loop that goes through `haystack`. -/
def search (haystack needle : List UInt8) (next : List Int) (n nh : Int) : Loop Searching where
  more state := state.i < nh && state.j < n
  body state := do
    if ← goesOn haystack needle state.i state.j then
      return ⟨state.i + 1, state.j + 1⟩
    else
      return { state with j := ← get next state.j }

/-- The array `next` of a word, if the loop goes round at most so often. -/
def nextOf (rounds : Nat) (needle : List UInt8) : Option (List Int) := do
  let n := int needle.length
  let next ← put (List.replicate n.toNat 0) 0 (-1)
  let filled ← (fill needle n).run rounds ⟨next, 0, -1⟩
  return filled.next

/-- `strStr`, if each of the loops goes round at most so often. -/
def strStr (rounds : Nat) (haystack needle : List UInt8) : Option Int := do
  let n := int needle.length
  let next ← nextOf rounds needle
  let nh := int haystack.length
  let found ← (search haystack needle next n nh).run rounds ⟨0, 0⟩
  if found.j = n then return found.i - found.j else return -1

/-- The word occurs in the text at this position. -/
def OccursAt (text word : List UInt8) (position : Nat) : Prop :=
  word <+: text.drop position

/-- What the search is for: the first position of the word, or -1 if there is none. -/
def IsFirst (text word : List UInt8) (result : Int) : Prop :=
  (∃ position : Nat, result = position ∧ OccursAt text word position ∧
    ∀ earlier < position, ¬ OccursAt text word earlier) ∨
    result = -1 ∧ ∀ position, ¬ OccursAt text word position

end SysProg.Algorithms.Kmp
