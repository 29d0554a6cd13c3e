import SysProg.Algorithms.TopK

/-! All ways to find the smallest elements find the same ones. -/

namespace SysProg.Algorithms.TopK

open Indexed

variable {arr done todo rest smallest result nums start : List Int} {number first last : Int}
  {k : Nat}

/-- What all ways have to find: `k` elements, none of which is greater than any of the others. -/
def Smallest (k : Nat) (arr result : List Int) : Prop :=
  ∃ rest, (result ++ rest).Perm arr ∧ result.length = k ∧ ∀ one ∈ result, ∀ two ∈ rest, one ≤ two

/-- When the smallest elements are in order, they are the first ones of the sorted array. -/
theorem Smallest.eq_take (is_smallest : Smallest k arr result)
    (sorted : result.Pairwise (· ≤ ·)) : result = (arr.insertionSort (· ≤ ·)).take k := by
  obtain ⟨rest, perm, rfl, below⟩ := is_smallest
  -- With the others in order behind them, the whole array is sorted.
  have whole : (result ++ rest.insertionSort (· ≤ ·)).Pairwise (· ≤ ·) := by
    rw [List.pairwise_append]
    refine ⟨sorted, List.pairwise_insertionSort _ _, fun one mem two mem_ => ?_⟩
    exact below one mem two ((List.mem_insertionSort _).mp mem_)
  have same : result ++ rest.insertionSort (· ≤ ·) = arr.insertionSort (· ≤ ·) := by
    have others : (result ++ rest.insertionSort (· ≤ ·)).Perm (result ++ rest) :=
      (List.perm_insertionSort _ _).append_left result
    have perm_ := (others.trans perm).trans (List.perm_insertionSort (· ≤ ·) arr).symm
    exact perm_.eq_of_pairwise' whole (List.pairwise_insertionSort _ _)
  rw [← same, List.take_left]

/-- The smallest elements stay the smallest in any other order. -/
theorem Smallest.reorder (is_smallest : Smallest k arr result) {other : List Int}
    (perm : other.Perm result) : Smallest k arr other := by
  -- Nothing is said of the order.
  obtain ⟨rest, all, size, below⟩ := is_smallest
  refine ⟨rest, (perm.append_right rest).trans all, perm.length_eq.trans size, ?_⟩
  intro one mem two mem_
  exact below one (perm.mem_iff.mp mem) two mem_

/-- The smallest elements are those that come first in the sorted array. -/
theorem Smallest.perm_take (is_smallest : Smallest k arr result) :
    result.Perm ((arr.insertionSort (· ≤ ·)).take k) := by
  have perm := List.perm_insertionSort (· ≤ ·) result
  rw [← (is_smallest.reorder perm).eq_take (List.pairwise_insertionSort _ _)]
  exact perm.symm

section Bubble

/-- What the inner loop does when it comes to an element, with the smallest one behind it. -/
def sink (number : Int) : List Int → List Int
  | [] => [number]
  | least :: rest => if least < number then least :: number :: rest else number :: least :: rest

/-- Two elements next to each other change places. -/
theorem swap_next (front : List Int) (one two : Int) (rest : List Int) :
    swap (front ++ one :: two :: rest) (front.length + 1 : Nat) front.length =
      some (front ++ two :: one :: rest) := by
  -- The two numbers are read, and then written over each other's place.
  have first : (front ++ one :: two :: rest)[front.length + 1]? = some two := by
    rw [List.getElem?_append_right (Nat.le_succ _)]
    simp
  have second : (front ++ one :: two :: rest)[front.length]? = some one := by
    simp
  have placed : put (front ++ one :: two :: rest) (front.length + 1 : Nat) one =
      some (front ++ one :: one :: rest) := by
    rw [put_natCast (by simp)]
    simp
  have placed_ : put (front ++ one :: one :: rest) front.length two =
      some (front ++ two :: one :: rest) := by
    rw [put_natCast (by simp)]
    simp
  rw [swap, get_natCast, get_natCast, first, second]
  show (put _ _ one).bind _ = _
  rw [placed]
  exact placed_

/-- The inner loop lets each element sink behind the smallest one of those that follow. -/
theorem bubble_eq (front : List Int) (least : Int) (rest : List Int) :
    bubble front.length (front ++ least :: rest) = some (front.foldr sink (least :: rest)) := by
  -- The induction goes from the end of the array to its beginning, as the loop does.
  induction front using List.reverseRecOn generalizing least rest with
  | nil => rfl
  | append_singleton front number ih =>
    have here : (front ++ number :: least :: rest)[front.length + 1]? = some least := by
      rw [List.getElem?_append_right (Nat.le_succ _)]
      simp
    have before : (front ++ number :: least :: rest)[front.length]? = some number := by
      simp
    rw [List.length_append, List.length_singleton, List.append_assoc, List.singleton_append,
      List.foldr_append, bubble, get_natCast, get_natCast, here, before]
    show Option.bind (if least < number then _ else _) _ =
      some (front.foldr sink (sink number (least :: rest)))
    rw [sink]
    by_cases less : least < number
    · rw [if_pos less, if_pos less, swap_next, Option.bind_some, ih]
    · rw [if_neg less, if_neg less, Option.bind_some, ih]

/-- The inner loop over a whole array. -/
theorem bubble_whole (some_ : arr ≠ []) :
    bubble (arr.length - 1) arr = some (arr.foldr sink []) := by
  obtain ⟨front, last, rfl⟩ := (List.eq_nil_or_concat' arr).resolve_left some_
  rw [List.length_append, List.length_singleton, Nat.add_sub_cancel, List.foldr_append]
  exact bubble_eq front last []

/-- The inner loop loses no elements. -/
theorem perm_sink (number : Int) (arr : List Int) : (sink number arr).Perm (number :: arr) := by
  -- The two numbers in front change places, or stay.
  cases arr with
  | nil => exact .refl _
  | cons least rest =>
    rw [sink]
    split
    · exact .swap number least rest
    · exact .refl _

theorem perm_sinks (arr : List Int) : (arr.foldr sink []).Perm arr := by
  induction arr with
  | nil => exact .refl _
  | cons number arr ih => exact (perm_sink number _).trans (ih.cons number)

/-- The inner loop brings the smallest element to the front. -/
theorem sinks_least (some_ : arr ≠ []) : ∃ least rest, arr.foldr sink [] = least :: rest ∧
    ∀ other ∈ arr, least ≤ other := by
  -- By induction from the back, as the pass goes: what is smaller moves to the front.
  induction arr with
  | nil => exact absurd rfl some_
  | cons number arr ih =>
    cases arr with
    | nil => exact ⟨number, [], rfl, fun other mem => (List.mem_singleton.mp mem).ge⟩
    | cons second arr =>
      obtain ⟨least, rest, sunk, below⟩ := ih (List.cons_ne_nil _ _)
      rw [List.foldr_cons, sunk, sink]
      -- The least of the rest moves past the first number, or the first number is the least.
      by_cases less : least < number
      · refine ⟨least, number :: rest, if_pos less, fun other mem => ?_⟩
        rcases List.mem_cons.mp mem with rfl | mem
        · exact less.le
        · exact below other mem
      · refine ⟨number, least :: rest, if_neg less, fun other mem => ?_⟩
        rcases List.mem_cons.mp mem with rfl | mem
        · exact le_rfl
        · exact (not_lt.mp less).trans (below other mem)

/-- What is already in order at the front stays where it is. -/
theorem sinks_done (sorted : done.Pairwise (· ≤ ·))
    (below : ∀ one ∈ done, ∀ two ∈ todo, one ≤ two) :
    (done ++ todo).foldr sink [] = done ++ todo.foldr sink [] := by
  induction done with
  | nil => rfl
  | cons number done ih =>
    have sunk := ih sorted.of_cons fun one mem => below one (List.mem_cons_of_mem _ mem)
    rw [List.cons_append, List.foldr_cons, sunk]
    -- No element that follows is less than this one.
    have least : ∀ other ∈ done ++ todo.foldr sink [], number ≤ other := by
      intro other mem
      rcases List.mem_append.mp mem with mem | mem
      · exact List.rel_of_pairwise_cons sorted mem
      · exact below number List.mem_cons_self other ((perm_sinks todo).mem_iff.mp mem)
    cases after : done ++ todo.foldr sink [] with
    | nil => rw [sink, List.cons_append, after]
    | cons other rest =>
      have first := least other (after ▸ List.mem_cons_self)
      rw [sink, if_neg (not_lt.mpr first), List.cons_append, after]

/-- Each round of the outer loop puts the smallest of the other elements behind those in order. -/
theorem bubbles_eq (k : Nat) (done todo : List Int) (sorted : done.Pairwise (· ≤ ·))
    (below : ∀ one ∈ done, ∀ two ∈ todo, one ≤ two) (few : k ≤ todo.length) :
    ∃ smallest rest, bubbles k (done ++ todo) = some (done ++ smallest ++ rest) ∧
      (smallest ++ rest).Perm todo ∧ smallest.length = k ∧
      (done ++ smallest).Pairwise (· ≤ ·) ∧ ∀ one ∈ done ++ smallest, ∀ two ∈ rest, one ≤ two := by
  -- By induction on the rounds, with the part that is sorted already in front.
  induction k generalizing done todo with
  | zero =>
    refine ⟨[], todo, by simp [bubbles], .refl _, rfl, by simpa using sorted, by simpa using below⟩
  | succ k ih =>
    have some_ : todo ≠ [] := by
      rintro rfl
      exact absurd few (by simp)
    obtain ⟨least, others, sunk, first⟩ := sinks_least some_
    have perm : (least :: others).Perm todo := sunk ▸ perm_sinks todo
    -- The round moves the least of the rest behind the sorted part, which stays as it is.
    have round : bubble ((done ++ todo).length - 1) (done ++ todo) =
        some (done ++ [least] ++ others) := by
      rw [bubble_whole (by simp [some_]), sinks_done sorted below, sunk]
      simp
    -- It is no less than what is sorted already, and no greater than what is left.
    have sorted_ : (done ++ [least]).Pairwise (· ≤ ·) := by
      rw [List.pairwise_append]
      refine ⟨sorted, List.pairwise_singleton _ _, fun one mem two mem_ => ?_⟩
      rw [List.mem_singleton.mp mem_]
      exact below one mem least (perm.mem_iff.mp List.mem_cons_self)
    have below_ : ∀ one ∈ done ++ [least], ∀ two ∈ others, one ≤ two := by
      intro one mem two mem_
      have there : two ∈ todo := perm.mem_iff.mp (List.mem_cons_of_mem _ mem_)
      rcases List.mem_append.mp mem with mem | mem
      · exact below one mem two there
      · rw [List.mem_singleton.mp mem]
        exact first two there
    have size : k ≤ others.length := by
      have lengths := perm.length_eq
      rw [List.length_cons] at lengths
      omega
    obtain ⟨smallest, rest, ran, all, length, in_order, less⟩ := ih _ _ sorted_ below_ size
    refine ⟨least :: smallest, rest, ?_, ?_, by simp [length], ?_, ?_⟩
    · rw [bubbles, if_neg (by simp [some_]), round, Option.bind_some, ran]
      simp
    · exact (all.cons least).trans perm
    · simpa using in_order
    · simpa using less

end Bubble

section Heap

/-- As long as the heap has elements, there is one on top. -/
theorem exists_top {pq : PriorityQueue Int} (some_ : pq.items ≠ []) :
    ∃ top, pq.top = some top ∧ pq.items = top :: pq.pop.items := by
  obtain ⟨items, sorted⟩ := pq
  -- The top is the first of the items.
  cases items with
  | nil => exact absurd rfl some_
  | cons top rest => exact ⟨top, rfl, rfl⟩

/-- The heap has the smallest of the elements that the loop has come to. -/
theorem sift_smallest {pq : PriorityQueue Int} (positive : 0 < k)
    (is_smallest : Smallest k done pq.items) (rest : List Int) :
    ∃ after, sift rest pq = some after ∧ Smallest k (done ++ rest) after.items := by
  induction rest generalizing pq done with
  | nil => exact ⟨pq, rfl, by simpa using is_smallest⟩
  | cons number rest ih =>
    obtain ⟨others, all, size, below⟩ := is_smallest
    obtain ⟨top, there, items⟩ := exists_top (List.ne_nil_of_length_pos (size ▸ positive))
    have all_ : (number :: (pq.items ++ others)).Perm (done ++ [number]) :=
      (all.cons number).trans (List.perm_append_singleton number done).symm
    have shift : done ++ number :: rest = (done ++ [number]) ++ rest := by simp
    rw [sift, there, shift]
    show ∃ after, (if number < top then _ else _) = some after ∧ _
    by_cases less : number < top
    · -- The greatest element so far makes room for the new one.
      rw [if_pos less]
      have pushed := PriorityQueue.perm_push pq.pop number
      refine ih ⟨top :: others, ?_, ?_, ?_⟩
      · refine List.Perm.trans ?_ all_
        rw [items]
        exact (pushed.append_right _).trans (List.perm_middle.cons number)
      · rw [pushed.length_eq, ← size, items]
        rfl
      · have most : ∀ one ∈ (pq.pop.push number).items, one ≤ top := by
          intro one mem
          rcases List.mem_cons.mp (pushed.mem_iff.mp mem) with rfl | mem
          · exact less.le
          · exact PriorityQueue.le_top there (items ▸ List.mem_cons_of_mem _ mem)
        intro one mem two mem_
        rcases List.mem_cons.mp mem_ with rfl | mem_
        · exact most one mem
        · exact (most one mem).trans (below top (items ▸ List.mem_cons_self) two mem_)
    · rw [if_neg less]
      refine ih ⟨number :: others, List.perm_middle.trans all_, size, ?_⟩
      intro one mem two mem_
      rcases List.mem_cons.mp mem_ with rfl | mem_
      · exact (PriorityQueue.le_top there mem).trans (not_lt.mp less)
      · exact below one mem two mem_

/-- What is taken out of the heap are its elements in descending order. -/
theorem drain_items (pq : PriorityQueue Int) :
    ∃ emptied, drain.run pq.items.length (pq, []) = some (emptied, pq.items) := by
  -- What was popped and what is left stay together the sorted items.
  have round : ∀ state : PriorityQueue Int × List Int, state.2 ++ state.1.items = pq.items →
      drain.more state = true → ∃ next, drain.body state = some next ∧
        next.2 ++ next.1.items = pq.items ∧ next.1.items.length < state.1.items.length := by
    intro state all more
    have some_ : state.1.items ≠ [] := by simpa [drain] using more
    obtain ⟨top, there, items⟩ := exists_top some_
    refine ⟨(state.1.pop, state.2 ++ [top]), ?_, ?_, ?_⟩
    · simp [drain, there]
    · rw [← all, items]
      simp
    · rw [items]
      exact Nat.lt_succ_self _
  have start : ((pq, []) : PriorityQueue Int × List Int).2 ++ pq.items = pq.items := rfl
  obtain ⟨⟨emptied, v⟩, ran, all, ended⟩ := Loop.run_total round start le_rfl
  have none_ : emptied.items = [] := by simpa [drain] using ended
  refine ⟨emptied, ?_⟩
  rw [ran, ← all, none_, List.append_nil]

end Heap

section Select

variable {l r : Nat} {pivot : Int}

/-- What is true of the variables of the loop in `partition`. -/
inductive Parting (start : List Int) (l r : Nat) (pivot : Int) : Partitioning → Prop
  | mk {nums : List Int} {low j : Nat} (left : l ≤ low) (middle : low ≤ j) (right : j ≤ r)
    (moved : Rearranged l (r - 1) start nums) (small : Within nums l (low - 1) (· ≤ pivot))
    (great : Within nums low (j - 1) (pivot < ·)) :
    Parting start l r pivot ⟨nums, (low : Int) - 1, j⟩

/-- A round of the loop puts one more element on the side where it belongs. -/
theorem Parting.round {state : Partitioning} (parting : Parting start l r pivot state)
    (inside : r < start.length) (more : (partitionLoop pivot r).more state = true) :
    ∃ next, (partitionLoop pivot r).body state = some next ∧ Parting start l r pivot next ∧
      (r - next.j).toNat < (r - state.j).toNat := by
  obtain @⟨nums, low, j, left, middle, right, moved, small, great⟩ := parting
  have more : (j : Int) ≤ r - 1 := of_decide_eq_true more
  have size := moved.perm.length_eq
  have here : nums[j]? = some nums[j] := List.getElem?_eq_getElem (by omega)
  by_cases below : nums[j] ≤ pivot
  · -- The first of the great elements makes room for this small one.
    obtain ⟨after, swapped, lookup, moves⟩ :=
      exists_swap nums low j (by omega) (by omega)
    refine ⟨⟨after, ((low + 1 : Nat) : Int) - 1, (j + 1 : Nat)⟩, ?_, ?_, ?_⟩
    · have next : (low : Int) - 1 + 1 = low := by omega
      have same : ((low + 1 : Nat) : Int) - 1 = low := by omega
      simp [partitionLoop, here, below, next, swapped]
    · refine ⟨by omega, by omega, by omega, ?_, ?_, ?_⟩
      · exact moved.trans (moves _ _ (by omega) (by omega) (by omega) (by omega))
      · intro index value above under there
        rw [lookup] at there
        by_cases last : index = low
        · rw [last, Equiv.swap_apply_left, here] at there
          exact Option.some.inj there ▸ below
        · rw [Equiv.swap_apply_of_ne_of_ne last (by omega)] at there
          exact small index value above (by omega) there
      · intro index value above under there
        rw [lookup] at there
        by_cases last : index = j
        · rw [last, Equiv.swap_apply_right] at there
          exact great low value (by omega) (by omega) there
        · rw [Equiv.swap_apply_of_ne_of_ne (by omega) last] at there
          exact great index value (by omega) (by omega) there
    · show ((r : Int) - (j + 1 : Nat)).toNat < _
      simp only
      omega
  · refine ⟨⟨nums, (low : Int) - 1, (j + 1 : Nat)⟩, ?_, ?_, ?_⟩
    · simp [partitionLoop, here, below]
    · refine ⟨left, by omega, by omega, moved, small, ?_⟩
      intro index value above under there
      by_cases last : index = j
      · rw [last, here] at there
        exact Option.some.inj there ▸ not_le.mp below
      · exact great index value above (by omega) there
    · show ((r : Int) - (j + 1 : Nat)).toNat < _
      simp only
      omega

/-- A range has been divided by its pivot. -/
structure Divided (l r pos : Nat) (pivot : Int) (after : List Int) : Prop where
  left : l ≤ pos
  right : pos ≤ r
  middle : after[pos]? = some pivot
  small : Within after l (pos - 1) (· ≤ pivot)
  great : Within after (pos + 1) r (pivot ≤ ·)

/-- `partition` divides a range by its last element. -/
theorem partition_divides (nums : List Int) (less : l < r) (inside : r < nums.length) :
    ∃ after, ∃ pos : Nat, ∃ pivot, partition nums l r = some (after, (pos : Int)) ∧
      Rearranged l r nums after ∧ Divided l r pos pivot after := by
  -- The loop keeps the parts that are at most the pivot and greater than it.
  have round : ∀ state, Parting nums l r nums[r] state →
      (partitionLoop nums[r] r).more state = true →
        ∃ next, (partitionLoop nums[r] r).body state = some next ∧
          Parting nums l r nums[r] next ∧ (r - next.j).toNat < (r - state.j).toNat :=
    fun _ parting more => parting.round inside more
  -- At the start both parts are empty.
  have start : Parting nums l r nums[r] ⟨nums, (l : Int) - 1, l⟩ := by
    refine ⟨le_rfl, le_rfl, less.le, .refl _ _ _, ?_, ?_⟩
    · intro index value above below
      omega
    · intro index value above below
      omega
  obtain ⟨finish, ran, parting, ended⟩ := Loop.run_total round start (le_refl ((r : Int) - l).toNat)
  obtain @⟨parted, low, j, left, middle, right, moved, small, great⟩ := parting
  have ended : ¬ (j : Int) ≤ r - 1 := of_decide_eq_false ended
  have size := moved.perm.length_eq
  obtain ⟨after, swapped, lookup, moves⟩ :=
    exists_swap parted low r (by omega) (by omega)
  -- The pivot has stayed at the end, and is swapped between the two parts.
  have last : parted[r]? = some nums[r] := by
    rw [moved.outside r (by omega), List.getElem?_eq_getElem inside]
  refine ⟨after, low, nums[r], ?_, ?_, left, by omega, ?_, ?_, ?_⟩
  · have next : (low : Int) - 1 + 1 = low := by omega
    rw [partition, get_natCast, List.getElem?_eq_getElem inside]
    show ((partitionLoop nums[r] r).run _ _).bind _ = _
    rw [ran]
    show (swap parted ((low : Int) - 1 + 1) r).bind _ = some (after, (low : Int))
    rw [next, swapped]
    rfl
  · exact (moved.widen le_rfl (by omega)).trans
      (moves l r (by omega) (by omega) (by omega) (by omega))
  · rw [lookup, Equiv.swap_apply_left, last]
  · intro index value above below there
    rw [lookup, Equiv.swap_apply_of_ne_of_ne (by omega) (by omega)] at there
    exact small index value above below there
  · intro index value above below there
    rw [lookup] at there
    -- The number swapped to the end is greater than the pivot.
    by_cases last_ : index = r
    · rw [last_, Equiv.swap_apply_right] at there
      exact (great low value (by omega) (by omega) there).le
    · rw [Equiv.swap_apply_of_ne_of_ne (by omega) last_] at there
      exact (great index value (by omega) (by omega) there).le

/-- Whatever `rand()` returns, a range is divided by one of its elements. -/
theorem randomizedPartition_divides (rand : Nat) (nums : List Int) (less : l < r)
    (inside : r < nums.length) (fits : (r : Int) - l + 1 < 2 ^ 31) :
    ∃ after, ∃ pos : Nat, ∃ pivot, randomizedPartition rand nums l r = some (after, (pos : Int)) ∧
      Rearranged l r nums after ∧ Divided l r pos pivot after := by
  -- The random index is within the bounds, so the swap is a permutation inside them.
  have low := Int.emod_nonneg rand (show (r : Int) - l + 1 ≠ 0 by omega)
  have high := Int.emod_lt_of_pos rand (show 0 < (r : Int) - l + 1 by omega)
  obtain ⟨i, chosen⟩ := Int.eq_ofNat_of_zero_le
    (show 0 ≤ (rand : Int) % (r - l + 1) + l by omega)
  obtain ⟨middle, swapped, _, moves⟩ :=
    exists_swap nums r i inside (by omega)
  have first := moves l r (by omega) (by omega) (by omega) (by omega)
  obtain ⟨after, pos, pivot, parted, second, divided⟩ :=
    partition_divides middle less (first.perm.length_eq ▸ inside)
  refine ⟨after, pos, pivot, ?_, first.trans second, divided⟩
  rw [randomizedPartition, if_pos fits]
  show (swap nums r (rand % (r - l + 1) + l)).bind _ = _
  rw [chosen, swapped]
  exact parted

/-- No element in the first `k` places of a range is greater than one in the other places. -/
def Selected (arr : List Int) (l : Nat) (r k : Int) : Prop :=
  ∀ (i j : Nat) one two, l ≤ i → i < l + k → l + k ≤ j → j ≤ r →
    arr[i]? = some one → arr[j]? = some two → one ≤ two

/-- `randomized_selected` brings the smallest elements of a range to its first places. -/
theorem randomizedSelected_selects (rand : Nat → Nat) (calls : Nat) (arr : List Int) (l : Nat)
    (r k : Int) (inside : r < arr.length) (fits : r - l + 1 < 2 ^ 31) (some_ : 0 < calls)
    (enough : r - l < calls) :
    ∃ after, randomizedSelected rand calls arr l r k = some after ∧ Rearranged l r arr after ∧
      Selected after l r k := by
  induction calls generalizing arr l r k with
  | zero => exact absurd some_ (Nat.lt_irrefl 0)
  | succ calls ih =>
    by_cases stop : (l : Int) ≥ r
    · -- A range with one element needs no other order.
      refine ⟨arr, by rw [randomizedSelected, if_pos stop], .refl _ _ _, ?_⟩
      intro i j one two above below
      omega
    · obtain ⟨high, rfl⟩ := Int.eq_ofNat_of_zero_le (show 0 ≤ r by omega)
      obtain ⟨middle, pos, pivot, parted, moved, divided⟩ :=
        randomizedPartition_divides (rand calls) arr (show l < high by omega) (by omega) fits
      have left := divided.left
      have right := divided.right
      have size := moved.perm.length_eq
      rw [randomizedSelected, if_neg stop, parted]
      show ∃ after, (if k = (pos : Int) - l + 1 then some middle
        else if k < (pos : Int) - l + 1 then
        randomizedSelected rand calls middle l (pos - 1) k else
        randomizedSelected rand calls middle (pos + 1) high (k - (pos - l + 1))) = some after ∧ _
      rcases lt_trichotomy k ((pos : Int) - l + 1) with fewer | exact_ | more
      · -- The last of the smallest elements is in front of the pivot.
        obtain ⟨after, ran, later, selected⟩ :=
          ih middle l (pos - 1) k (by omega) (by omega) (by omega) (by omega)
        refine ⟨after, by rw [if_neg fewer.ne, if_pos fewer, ran],
          moved.trans (later.widen le_rfl (by omega)), ?_⟩
        have small := later.inside _ divided.small
        intro i j one two above below above_ below_ first second
        by_cases front : (j : Int) ≤ pos - 1
        · exact selected i j one two above below above_ front first second
        · have least := small i one (Int.ofNat_le.mpr above) (by omega) first
          rw [later.outside j (by omega)] at second
          by_cases here : j = pos
          · rw [here, divided.middle] at second
            exact Option.some.inj second ▸ least
          · exact least.trans (divided.great j two (by omega) below_ second)
      · -- The pivot is the last of the smallest elements.
        refine ⟨middle, by rw [if_pos exact_], moved, ?_⟩
        intro i j one two above below above_ below_ first second
        have most := divided.great j two (by omega) below_ second
        by_cases here : i = pos
        · rw [here, divided.middle] at first
          exact Option.some.inj first ▸ most
        · exact (divided.small i one (Int.ofNat_le.mpr above) (by omega) first).trans most
      · -- The last of the smallest elements is behind the pivot.
        obtain ⟨after, ran, later, selected⟩ :=
          ih middle (pos + 1) high (k - (pos - l + 1)) (by omega) (by push_cast; omega) (by omega)
            (by push_cast; omega)
        refine ⟨after, by rw [if_neg more.ne', if_neg more.le.not_gt, ← ran]; rfl,
          moved.trans (later.widen (by push_cast; omega) le_rfl), ?_⟩
        have great := later.inside (pivot ≤ ·)
          (divided.great.narrow (by push_cast; omega) le_rfl)
        intro i j one two above below above_ below_ first second
        by_cases back : pos + 1 ≤ i
        · exact selected i j one two back (by push_cast; omega) (by push_cast; omega) below_ first
            second
        · have most := great j two (by push_cast; omega) below_ second
          rw [later.outside i (by push_cast; omega)] at first
          by_cases here : i = pos
          · rw [here, divided.middle] at first
            exact Option.some.inj first ▸ most
          · exact (divided.small i one (Int.ofNat_le.mpr above) (by omega) first).trans most

end Select

/-- The first places of a whole array, when no other element is less than one of them. -/
theorem smallest_of_selected (few : k ≤ arr.length) (perm : result.Perm arr)
    (selected : Selected result 0 (arr.length - 1) k) : Smallest k arr (result.take k) := by
  have size := perm.length_eq
  refine ⟨result.drop k, by rwa [List.take_append_drop], by simp; omega, fun one mem two mem_ => ?_⟩
  obtain ⟨i, first⟩ := List.mem_iff_getElem?.mp mem
  obtain ⟨j, second⟩ := List.mem_iff_getElem?.mp mem_
  -- What is at an index below k is selected against what is at an index from k on.
  have front : i < k := by
    by_contra out
    rw [List.getElem?_eq_none (by simp; omega)] at first
    exact nomatch first
  rw [List.getElem?_take_of_lt front] at first
  rw [List.getElem?_drop] at second
  have back : k + j < arr.length := size ▸ (List.getElem?_eq_some_iff.mp second).1
  exact selected i (k + j) one two (Nat.zero_le i) (by omega) (by omega) (by omega) first second

/-- Sorting the whole array or a part of it, a heap and quick selection find the same elements. -/
theorem smallestK_agree (arr : List Int) (k : Nat) (few : k ≤ arr.length)
    (fits : arr.length < 2 ^ 31) :
    smallestKSort arr k = some ((arr.insertionSort (· ≤ ·)).take k) ∧
      smallestKBubble arr k = some ((arr.insertionSort (· ≤ ·)).take k) ∧
      smallestKHeap arr k = some ((arr.insertionSort (· ≤ ·)).take k).reverse ∧
      ∀ (rand : Nat → Nat) (calls : Nat), arr.length < calls →
        ∃ after, randomizedSelected rand calls arr 0 (arr.length - 1) k = some after ∧
          after.Perm arr ∧ (after.take k).Perm ((arr.insertionSort (· ≤ ·)).take k) := by
  -- Each algorithm gives k smallest numbers, and those are determined but for their order.
  refine ⟨?_, ?_, ?_, ?_⟩
  · rw [smallestKSort, front, if_pos (by simpa using few)]
  · obtain ⟨smallest, rest, ran, perm, size, sorted, below⟩ :=
      bubbles_eq k [] arr .nil (fun _ mem => absurd mem List.not_mem_nil) few
    have is_smallest : Smallest k arr smallest := ⟨rest, perm, size, below⟩
    have found : bubbles k arr = some (smallest ++ rest) := ran
    rw [smallestKBubble, found, ← is_smallest.eq_take sorted]
    show front (smallest ++ rest) k = _
    rw [front, if_pos (by simp [size]), ← size, List.take_left]
  -- The heap holds the k smallest of what it has seen, the greatest on top.
  · cases k with
    | zero => rfl
    | succ k =>
      have first : Smallest (k + 1) (arr.take (k + 1))
          (PriorityQueue.ofList (arr.take (k + 1))).items := by
        have perm := PriorityQueue.perm_ofList (arr.take (k + 1))
        refine ⟨[], by simpa using perm, ?_, fun _ _ _ mem => absurd mem List.not_mem_nil⟩
        rw [perm.length_eq, List.length_take, Nat.min_eq_left few]
      obtain ⟨pq, sifted, is_smallest⟩ := sift_smallest (Nat.succ_pos k) first (arr.drop (k + 1))
      rw [List.take_append_drop] at is_smallest
      obtain ⟨emptied, ran⟩ := drain_items pq
      have ascending : pq.items.reverse.Pairwise (· ≤ ·) := List.pairwise_reverse.mpr pq.sorted
      have found := (is_smallest.reorder (List.reverse_perm _)).eq_take ascending
      rw [← found, List.reverse_reverse, smallestKHeap, front, if_pos few]
      show (sift _ _).bind _ = _
      rw [sifted]
      show (drain.run _ _).bind _ = _
      rw [ran]
      rfl
  -- The quick selection gives them in any order, whatever the pivots were.
  · intro rand calls enough
    obtain ⟨after, ran, moved, selected⟩ := randomizedSelected_selects rand calls arr 0
      (arr.length - 1) k (by omega) (by omega) (by omega) (by omega)
    exact ⟨after, ran, moved.perm, (smallest_of_selected few moved.perm selected).perm_take⟩

theorem smallestK_agree_twice : smallestKSort [3, 1, 3, 2] 2 = some [1, 2] ∧
    smallestKBubble [3, 1, 3, 2] 2 = some [1, 2] ∧ smallestKHeap [3, 1, 3, 2] 2 = some [2, 1] :=
  have agree := smallestK_agree [3, 1, 3, 2] 2 (by decide) (by decide)
  ⟨agree.1, agree.2.1, agree.2.2.1⟩

end SysProg.Algorithms.TopK
