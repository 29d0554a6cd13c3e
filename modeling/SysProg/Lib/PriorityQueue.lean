import Mathlib.Data.List.Sort

/-! Queues whose greatest element is taken out first, as a list in descending order. -/

namespace SysProg

/-- A priority queue, the greatest element of which is on top. -/
structure PriorityQueue (α : Type*) [LinearOrder α] where
  items : List α
  sorted : items.Pairwise (· ≥ ·)

namespace PriorityQueue

variable {α : Type*} [LinearOrder α]

/-- The queue with these elements. -/
def ofList (elements : List α) : PriorityQueue α :=
  ⟨elements.insertionSort (· ≥ ·), List.pairwise_insertionSort _ _⟩

/-- The element on top, unless the queue is empty. -/
def top (queue : PriorityQueue α) : Option α := queue.items.head?

/-- The queue without the element on top. -/
def pop (queue : PriorityQueue α) : PriorityQueue α :=
  ⟨queue.items.tail, queue.sorted.tail⟩

/-- The queue with one more element. -/
def push (queue : PriorityQueue α) (element : α) : PriorityQueue α :=
  ⟨queue.items.orderedInsert (· ≥ ·) element, queue.sorted.orderedInsert _ _⟩

/-- A new queue has exactly the elements it is made from. -/
theorem perm_ofList (elements : List α) : (ofList elements).items.Perm elements :=
  List.perm_insertionSort _ _

/-- After an element has been added, the queue has it and the others. -/
theorem perm_push (queue : PriorityQueue α) (element : α) :
    (queue.push element).items.Perm (element :: queue.items) :=
  List.perm_orderedInsert _ _ _

/-- No element is greater than the one on top. -/
theorem le_top {queue : PriorityQueue α} {greatest element : α} (there : queue.top = some greatest)
    (mem : element ∈ queue.items) : element ≤ greatest := by
  obtain ⟨items, sorted⟩ := queue
  -- The items are in order, and the top is the first of them.
  cases items with
  | nil => exact absurd mem List.not_mem_nil
  | cons first rest =>
    obtain rfl := Option.some.inj there
    rcases List.mem_cons.mp mem with rfl | mem
    · exact le_rfl
    · exact List.rel_of_pairwise_cons sorted mem

end PriorityQueue

end SysProg
