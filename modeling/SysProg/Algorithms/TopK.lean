import SysProg.Lib.Indexed
import SysProg.Lib.Loop
import SysProg.Lib.PriorityQueue

/-! The ways to find the `k` smallest elements of an array. -/

namespace SysProg.Algorithms.TopK

open Indexed

/-- The first `k` elements of an array, which has to be long enough. -/
def front (arr : List Int) (k : Nat) : Option (List Int) :=
  if k ≤ arr.length then some (arr.take k) else none

/-- `smallestK`, by sorting the array. -/
def smallestKSort (arr : List Int) (k : Nat) : Option (List Int) :=
  front (arr.insertionSort (· ≤ ·)) k

/-- The inner loop of the bubble sort, when the iterator is so far from the beginning. -/
def bubble : Nat → List Int → Option (List Int)
  | 0, arr => some arr
  | it + 1, arr => do
    let here ← get arr (it + 1 : Nat)
    let before ← get arr it
    let exchanged := if here < before then swap arr (it + 1 : Nat) it else some arr
    bubble it (← exchanged)

/-- The outer loop of the bubble sort, when it still has to go round so often. -/
def bubbles : Nat → List Int → Option (List Int)
  | 0, arr => some arr
  -- In an empty array, there is nothing before `arr.end()`.
  | k + 1, arr => if arr = [] then none else (bubble (arr.length - 1) arr).bind (bubbles k)

/-- `smallestK`, by sorting a part of the array only. -/
def smallestKBubble (arr : List Int) (k : Nat) : Option (List Int) := do
  front (← bubbles k arr) k

/-- The loop over the elements that are not in the heap from the beginning. -/
def sift : List Int → PriorityQueue Int → Option (PriorityQueue Int)
  | [], pq => some pq
  | number :: rest, pq => do
    let top ← pq.top
    if number < top then sift rest (pq.pop.push number) else sift rest pq

/-- The loop that empties the heap. -/
def drain : Loop (PriorityQueue Int × List Int) where
  more state := !state.1.items.isEmpty
  body state := do
    return (state.1.pop, state.2 ++ [← state.1.top])

/-- `smallestK`, with a heap of the smallest elements so far. -/
def smallestKHeap (arr : List Int) (k : Nat) : Option (List Int) := do
  if k = 0 then return []
  let pq ← sift (arr.drop k) (.ofList (← front arr k))
  let emptied ← drain.run pq.items.length (pq, [])
  return emptied.2

/-- The variables of the loop in `partition`. -/
structure Partitioning where
  nums : List Int
  i : Int
  j : Int

/-- The loop in `partition`. -/
def partitionLoop (pivot r : Int) : Loop Partitioning where
  more state := state.j ≤ r - 1
  body state := do
    if (← get state.nums state.j) ≤ pivot then
      let i := state.i + 1
      return ⟨← swap state.nums i state.j, i, state.j + 1⟩
    else
      return { state with j := state.j + 1 }

/-- `partition`, with the array and the index of the pivot in the end. -/
def partition (nums : List Int) (l r : Int) : Option (List Int × Int) := do
  let pivot ← get nums r
  let parted ← (partitionLoop pivot r).run (r - l).toNat ⟨nums, l - 1, l⟩
  let nums ← swap parted.nums (parted.i + 1) r
  return (nums, parted.i + 1)

/-- `randomized_partition`, with what `rand()` returns. -/
def randomizedPartition (rand : Nat) (nums : List Int) (l r : Int) : Option (List Int × Int) := do
  -- The size of the range has to be an `int`.
  if r - l + 1 < 2 ^ 31 then
    let i := rand % (r - l + 1) + l
    partition (← swap nums r i) l r
  else none

/-- `randomized_selected`, with what `rand()` returns in each of so many calls at most. -/
def randomizedSelected (rand : Nat → Nat) : Nat → List Int → Int → Int → Int → Option (List Int)
  | 0, _, _, _, _ => none
  | calls + 1, arr, l, r, k =>
    if l ≥ r then some arr
    else do
      let (arr, pos) ← randomizedPartition (rand calls) arr l r
      let num := pos - l + 1
      if k = num then return arr
      else if k < num then randomizedSelected rand calls arr l (pos - 1) k
      else randomizedSelected rand calls arr (pos + 1) r (k - num)

end SysProg.Algorithms.TopK
