import SysProg.Algorithms.Kmp

/-! The array holds the longest borders, and the search finds the first occurrence. -/

namespace SysProg.Algorithms.Kmp

open Borders Indexed

variable {haystack needle text word : List UInt8} {next : List Int} {count : Nat} {j : Int}

/-- Before the end of the text, the test compares the next letter with the one that is wanted. -/
theorem goesOn_eq {letter : UInt8} (here : text[count]? = some letter) (low : -1 ≤ j)
    (high : j < needle.length) : goesOn text needle count j =
      some (decide (0 ≤ j → needle[j.toNat]? = some letter)) := by
  -- With -1 the whole word has been given up, and the letter is not compared.
  by_cases none_ : j = -1
  · subst none_
    simp [goesOn]
  · obtain ⟨wanted, rfl⟩ := Int.eq_ofNat_of_zero_le (show 0 ≤ j by omega)
    have inside : wanted < needle.length := by omega
    simp [goesOn, none_, here, List.getElem?_eq_getElem inside, eq_comm]

/-- One more letter of a text comes after those before it. -/
theorem take_succ {letter : UInt8} (here : text[count]? = some letter) :
    text.take (count + 1) = text.take count ++ [letter] := by
  rw [List.take_add_one, here]
  rfl

section Next

/-- The first entries of `next` are the longest borders of the beginnings of the word. -/
def Filled (needle : List UInt8) (next : List Int) (count : Nat) : Prop :=
  ∀ length < count, ∃ border, next[length]? = some border ∧ Border needle length border

/-- What is true of the variables of the first loop. -/
inductive Filling.Good (needle : List UInt8) : Filling → Prop
  | mk {next : List Int} {count : Nat} {j : Int} (size : next.length = needle.length)
    (inside : count < needle.length) (filled : Filled needle next (count + 1))
    (best : Best needle (needle.take count) count (needle[·]? = needle[count]?) j) :
    Filling.Good needle ⟨next, count, j⟩

/-- How often the first loop may still go round. -/
def Filling.left (needle : List UInt8) (state : Filling) : Nat :=
  (2 * (needle.length - 1 - state.i) + (state.j + 1)).toNat

/-- One more entry is filled in with the longest border. -/
theorem Filled.set (filled : Filled needle next (count + 1)) (inside : count + 1 < next.length)
    (border : Border needle (count + 1) j) :
    Filled needle (next.set (count + 1) j) (count + 2) := by
  intro length below
  -- The entry that is written is the next one, and those before stay.
  by_cases last : length = count + 1
  · subst last
    exact ⟨j, List.getElem?_set_self inside, border⟩
  · rw [List.getElem?_set_ne (Ne.symm last)]
    exact filled length (by omega)

/-- A round of the first loop fills in an entry, or goes on with a shorter border. -/
theorem Filling.Good.round {state : Filling} (good : state.Good needle)
    (more : (fill needle needle.length).more state = true) :
    ∃ later, (fill needle needle.length).body state = some later ∧ later.Good needle ∧
      later.left needle < state.left needle := by
  obtain @⟨next, count, j, size, inside, filled, best⟩ := good
  have more : (count : Int) < needle.length - 1 := of_decide_eq_true more
  have letter : needle[count]? = some needle[count] := List.getElem?_eq_getElem inside
  have low := best.low
  have high := best.high
  rw [letter] at best
  have test : goesOn needle needle count j =
      some (decide (0 ≤ j → needle[j.toNat]? = some needle[count])) :=
    goesOn_eq letter low (by omega)
  by_cases goes_on : 0 ≤ j → needle[j.toNat]? = some needle[count]
  · -- The border of the next beginning is one letter longer.
    have border := best.extend (by omega) goes_on
    rw [← take_succ letter] at border
    have placed : put next (count + 1) (j + 1) = some (next.set (count + 1) (j + 1)) := by
      rw [← Int.natCast_succ]
      exact put_natCast (by omega) (j + 1)
    rw [decide_eq_true goes_on] at test
    refine ⟨⟨next.set (count + 1) (j + 1), (count + 1 : Nat), j + 1⟩, ?_, ?_, ?_⟩
    · simp [fill, test, placed]
    · refine ⟨by simpa using size, by omega, filled.set (by omega) border, ?_⟩
      exact border.weaken fun _ _ => trivial
    · simp only [Filling.left]
      push_cast
      omega
  · -- The next candidate is the longest border of the one that does not go on.
    rw [decide_eq_false goes_on] at test
    rw [Classical.not_imp] at goes_on
    obtain ⟨some_, other⟩ := goes_on
    obtain ⟨border, there, shorter⟩ := filled j.toNat (by omega)
    have fallback := best.fallback some_ (by omega) other shorter
    have below := shorter.high
    have above := shorter.low
    have read : get next j = some border := by
      rw [← there, ← get_natCast, Int.toNat_of_nonneg some_]
    refine ⟨⟨next, count, border⟩, ?_, ?_, ?_⟩
    · simp [fill, test, read]
    · refine ⟨size, inside, filled, ?_⟩
      rwa [letter]
    · simp only [Filling.left]
      omega

/-- All entries of `next` are filled in, after fewer rounds than twice the length of the word. -/
theorem nextOf_filled (some_ : needle ≠ []) (fits : needle.length < 2 ^ 31) {rounds : Nat}
    (enough : 2 * needle.length ≤ rounds) :
    ∃ next, nextOf rounds needle = some next ∧ next.length = needle.length ∧
      Filled needle next needle.length := by
  have positive := List.length_pos_of_ne_nil some_
  -- Before the loop only the first entry is written, with -1.
  have start : Filling.Good needle
      ⟨(List.replicate needle.length 0).set 0 (-1), (0 : Nat), -1⟩ := by
    refine ⟨by simp, positive, ?_, border_zero.weaken fun _ _ => trivial⟩
    intro length below
    obtain rfl : length = 0 := by omega
    exact ⟨-1, List.getElem?_set_self (by simpa using positive), border_zero⟩
  have placed : put (List.replicate needle.length 0) 0 (-1) =
      some ((List.replicate needle.length 0).set 0 (-1)) := by
    have inside : 0 < (List.replicate needle.length (0 : Int)).length := by simpa using positive
    exact put_natCast inside (-1)
  -- Each round fills an entry or falls back to a shorter border.
  have round : ∀ state, Filling.Good needle state →
      (fill needle needle.length).more state = true →
        ∃ later, (fill needle needle.length).body state = some later ∧ later.Good needle ∧
          later.left needle < state.left needle := fun _ good more => good.round more
  have few : Filling.left needle ⟨(List.replicate needle.length 0).set 0 (-1), (0 : Nat), -1⟩ ≤
      rounds := by
    simp only [Filling.left]
    omega
  obtain ⟨finish, ran, good, ended⟩ := Loop.run_total round start few
  obtain @⟨next, count, j, size, inside, filled, _⟩ := good
  have ended : ¬ (count : Int) < needle.length - 1 := of_decide_eq_false ended
  refine ⟨next, ?_, size, ?_⟩
  · rw [nextOf, int_of_fits (by omega) (by omega)]
    simp only [Int.toNat_natCast, placed]
    show ((fill needle needle.length).run rounds _).bind _ = _
    rw [show (fill needle needle.length).run rounds ⟨_, 0, -1⟩ = _ from ran]
    rfl
  -- The loop ends when all entries are filled.
  · have last : count + 1 = needle.length := by omega
    rwa [last] at filled

end Next

section Search

/-- A word that occurs at a position ends the text up to where the occurrence ends. -/
theorem OccursAt.ends {position : Nat} (occurs : OccursAt text word position) (some_ : word ≠ []) :
    position + word.length ≤ text.length ∧ word <:+ text.take (position + word.length) := by
  -- The word begins what is left of the text, so it ends what was read up to its end.
  obtain ⟨rest, same⟩ := occurs
  have lengths := congrArg List.length same
  rw [List.length_append, List.length_drop] at lengths
  have positive := List.length_pos_of_ne_nil some_
  refine ⟨by omega, text.take position, ?_⟩
  rw [List.take_add, ← same, List.take_left]

/-- A word that ends the text up to some letter occurs at the position so much before. -/
theorem occursAt_of_ends (inside : count ≤ text.length) (ends : word <:+ text.take count) :
    word.length ≤ count ∧ OccursAt text word (count - word.length) := by
  -- The word ends what was read, so it begins its own length before.
  obtain ⟨front, same⟩ := ends
  have lengths := congrArg List.length same
  rw [List.length_append, List.length_take, Nat.min_eq_left inside] at lengths
  refine ⟨by omega, text.drop count, ?_⟩
  have front_ : count - word.length = front.length := by omega
  have whole := List.take_append_drop count text
  rw [← same, List.append_assoc] at whole
  rw [front_]
  conv_rhs => rw [← whole]
  rw [List.drop_left]

/-- What is true of the variables of the second loop. -/
inductive Searching.Good (haystack needle : List UInt8) : Searching → Prop
  /-- No occurrence has ended so far, and no longer beginning goes on with the next letter. -/
  | going {count : Nat} {j : Int} (inside : count ≤ haystack.length)
    (before : ∀ ends ≤ count, ¬ needle <:+ haystack.take ends)
    (best : Best needle (haystack.take count) needle.length (needle[·]? = haystack[count]?) j) :
    Searching.Good haystack needle ⟨count, j⟩
  /-- The first occurrence has just ended. -/
  | found {count : Nat} (inside : count ≤ haystack.length)
    (before : ∀ ends < count, ¬ needle <:+ haystack.take ends)
    (ends : needle <:+ haystack.take count) : Searching.Good haystack needle ⟨count, needle.length⟩

/-- How often the second loop may still go round. -/
def Searching.left (haystack : List UInt8) (state : Searching) : Nat :=
  (2 * (haystack.length - state.i) + state.j + 1).toNat

/-- A round of the second loop reads a letter, or goes on with a shorter beginning. -/
theorem Searching.Good.round {state : Searching} (good : state.Good haystack needle)
    (filled : Filled needle next needle.length)
    (more : (search haystack needle next needle.length haystack.length).more state = true) :
    ∃ later, (search haystack needle next needle.length haystack.length).body state = some later ∧
      later.Good haystack needle ∧ later.left haystack < state.left haystack := by
  have more : (state.i : Int) < haystack.length ∧ state.j < needle.length := by
    simpa [search] using more
  cases good with
  | found => exact absurd more.2 (lt_irrefl _)
  | @going count j inside before best =>
    have inside : count < haystack.length := Int.ofNat_lt.mp more.1
    have letter : haystack[count]? = some haystack[count] := List.getElem?_eq_getElem inside
    have low := best.low
    have high := best.high
    rw [letter] at best
    have test : goesOn haystack needle count j =
        some (decide (0 ≤ j → needle[j.toNat]? = some haystack[count])) :=
      goesOn_eq letter low high
    by_cases goes_on : 0 ≤ j → needle[j.toNat]? = some haystack[count]
    · rw [decide_eq_true goes_on] at test
      have longer := best.extend le_rfl goes_on
      rw [← take_succ letter] at longer
      refine ⟨⟨(count + 1 : Nat), j + 1⟩, ?_, ?_, ?_⟩
      · simp [search, test]
      · have earlier : ∀ ends < count + 1, ¬ needle <:+ haystack.take ends :=
          fun ends below => before ends (by omega)
        by_cases whole : j + 1 = needle.length
        · -- This letter is the last one of an occurrence.
          rw [whole] at longer ⊢
          refine .found inside earlier ?_
          simpa using longer.ends (by omega)
        · have none_ : ¬ needle <:+ haystack.take (count + 1) := by
            intro ends
            have most := longer.longest needle.length (by omega) trivial (by simpa using ends)
            omega
          refine .going inside ?_ ?_
          · intro ends below
            rcases Nat.lt_or_eq_of_le below with less | rfl
            · exact earlier ends less
            · exact none_
          · exact (longer.lower (by omega) (by omega)).weaken fun _ _ => trivial
      · simp only [Searching.left]
        push_cast
        omega
    · rw [decide_eq_false goes_on] at test
      rw [Classical.not_imp] at goes_on
      obtain ⟨some_, other⟩ := goes_on
      obtain ⟨border, there, shorter⟩ := filled j.toNat (by omega)
      have fallback := best.fallback some_ (by omega) other shorter
      have below := shorter.high
      have above := shorter.low
      have read : get next j = some border := by
        rw [← there, ← get_natCast, Int.toNat_of_nonneg some_]
      refine ⟨⟨count, border⟩, ?_, ?_, ?_⟩
      · simp [search, test, read]
      · refine .going inside.le before ?_
        rwa [letter]
      · simp only [Searching.left]
        omega

/-- The search finds the first occurrence of any word, in time linear in both lengths. -/
theorem strStr_first (haystack needle : List UInt8) (some_ : needle ≠ [])
    (short : needle.length < 2 ^ 31) (short_ : haystack.length < 2 ^ 31) (rounds : Nat)
    (enough : 2 * needle.length ≤ rounds) (enough_ : 2 * haystack.length + 1 ≤ rounds) :
    ∃ result, strStr rounds haystack needle = some result ∧ IsFirst haystack needle result := by
  obtain ⟨next, made, _, filled⟩ := nextOf_filled some_ short enough
  have positive := List.length_pos_of_ne_nil some_
  have start : Searching.Good haystack needle ⟨(0 : Nat), 0⟩ := by
    refine .going (Nat.zero_le _) ?_ ((best_nil positive le_rfl).weaken fun _ _ => trivial)
    intro ends none_ occurs
    obtain rfl : ends = 0 := by omega
    exact some_ (List.suffix_nil.mp occurs)
  have round : ∀ state, Searching.Good haystack needle state →
      (search haystack needle next needle.length haystack.length).more state = true →
        ∃ later, (search haystack needle next needle.length haystack.length).body state =
          some later ∧ later.Good haystack needle ∧ later.left haystack < state.left haystack :=
    fun _ good more => good.round filled more
  have few : Searching.left haystack ⟨(0 : Nat), 0⟩ ≤ rounds := by
    simp only [Searching.left]
    omega
  obtain ⟨finish, ran, good, ended⟩ := Loop.run_total round start few
  have ended : finish.i < haystack.length → needle.length ≤ finish.j := by
    simpa [search] using ended
  have found : strStr rounds haystack needle =
      if finish.j = needle.length then some (finish.i - finish.j) else some (-1) := by
    rw [strStr, made, int_of_fits (by omega) (by omega), int_of_fits (by omega) (by omega)]
    show ((search haystack needle next needle.length haystack.length).run rounds _).bind _ = _
    rw [show (search haystack needle next _ _).run rounds ⟨0, 0⟩ = _ from ran]
    rfl
  rw [found]
  cases good with
  | @going count j inside before best =>
    have high := best.high
    have ended : (count : Int) < haystack.length → (needle.length : Int) ≤ j := ended
    refine ⟨-1, if_neg high.ne, .inr ⟨rfl, fun position occurs => ?_⟩⟩
    -- The whole text has been read, and no occurrence has ended in it.
    obtain ⟨within, ends⟩ := occurs.ends some_
    exact before _ (by omega) ends
  | @found count inside before ends =>
    obtain ⟨within, occurs⟩ := occursAt_of_ends inside ends
    refine ⟨(count - needle.length : Nat), ?_, .inl ⟨_, rfl, occurs, fun earlier less there => ?_⟩⟩
    · rw [if_pos rfl, Int.natCast_sub within]
    · exact before _ (by omega) (there.ends some_).2

/-- A word that occurs in spite of a partial match before is found. -/
theorem strStr_first_overlapping :
    ∃ result, strStr 9 [97, 97, 97, 98] [97, 97, 98] = some result ∧
      IsFirst [97, 97, 97, 98] [97, 97, 98] result :=
  strStr_first [97, 97, 97, 98] [97, 97, 98] (by decide) (by decide) (by decide) 9 (by decide)
    (by decide)

end Search

end SysProg.Algorithms.Kmp
