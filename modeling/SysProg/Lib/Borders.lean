import Mathlib.Tactic

/-! The beginnings of a word with which a text ends, and how they change as the text grows. -/

namespace SysProg

namespace Borders

variable {α : Type*}

/-- The longest of the wanted beginnings of a word that end a text, with -1 for none of them. -/
structure Best (word text : List α) (bound : Nat) (wanted : Nat → Prop) (best : Int) : Prop where
  low : -1 ≤ best
  high : best < bound
  ends : 0 ≤ best → word.take best.toNat <:+ text
  /-- No wanted beginning below the bound is longer. -/
  longest : ∀ count < bound, wanted count → word.take count <:+ text → (count : Int) ≤ best

/-- The length of the longest beginning of a word, but for itself, that ends the word as well. -/
def Border (word : List α) (count : Nat) (border : Int) : Prop :=
  Best word (word.take count) count (fun _ => True) border

variable {word text : List α} {bound : Nat} {wanted : Nat → Prop} {best border : Int}

/-- When fewer beginnings are wanted, the same one may stand for the longest. -/
theorem Best.weaken {fewer : Nat → Prop} (is_best : Best word text bound wanted best)
    (enough : ∀ count, fewer count → wanted count) : Best word text bound fewer best :=
  ⟨is_best.low, is_best.high, is_best.ends,
    fun count below want => is_best.longest count below (enough count want)⟩

/-- When the bound is lower, the same beginning is the longest, as long as it is below. -/
theorem Best.lower {less : Nat} (is_best : Best word text bound wanted best) (few : less ≤ bound)
    (below : best < less) : Best word text less wanted best :=
  ⟨is_best.low, below, is_best.ends,
    fun count less_ want => is_best.longest count (by omega) want⟩

/-- When the longest beginning is not wanted, the next candidate is its own longest border. -/
theorem Best.fallback (is_best : Best word text bound wanted best) (some_ : 0 ≤ best)
    (within : best ≤ word.length) (unwanted : ¬ wanted best.toNat)
    (next : Border word best.toNat border) : Best word text bound wanted border where
  low := next.low
  high := by
    have high := is_best.high
    have shorter := next.high
    omega
  ends here := (next.ends here).trans (is_best.ends some_)
  longest := by
    intro count below want ends
    have longest := is_best.longest count below want ends
    have other : count ≠ best.toNat := by
      rintro rfl
      exact unwanted want
    -- Both end the text, and so the shorter one ends the longer one.
    refine next.longest count (by omega) trivial ?_
    apply List.suffix_of_suffix_length_le ends (is_best.ends some_)
    simp only [List.length_take]
    omega

/-- When the next letter goes on with the longest beginning that wants it, this one is longest. -/
theorem Best.extend {letter : α} (is_best : Best word text bound (word[·]? = some letter) best)
    (within : bound ≤ word.length) (goes_on : 0 ≤ best → word[best.toNat]? = some letter) :
    Best word (text ++ [letter]) (bound + 1) (fun _ => True) (best + 1) where
  low := by
    have low := is_best.low
    omega
  high := by
    have high := is_best.high
    push_cast
    omega
  ends := by
    intro _
    by_cases some_ : 0 ≤ best
    · have longer : (best + 1).toNat = best.toNat + 1 := by omega
      rw [longer, List.take_add_one, goes_on some_]
      exact (List.suffix_append_inj_of_length_eq rfl).mpr ⟨is_best.ends some_, rfl⟩
    · have low := is_best.low
      have none_ : (best + 1).toNat = 0 := by omega
      rw [none_]
      exact List.nil_suffix
  longest := by
    intro count below _ ends
    cases count with
    | zero =>
      have low := is_best.low
      push_cast
      omega
    | succ count =>
      -- The last letter of this beginning is the new letter, and the others end the old text.
      have inside : count < word.length := by omega
      rw [List.take_succ_eq_append_getElem inside] at ends
      rcases List.suffix_concat_iff.mp ends with none_ | ⟨front, same, ends⟩
      · exact absurd none_ (List.concat_ne_nil _ _)
      · obtain ⟨rfl, last⟩ := List.append_inj' same rfl
        have want : word[count]? = some letter := by
          rw [List.getElem?_eq_getElem inside, List.singleton_inj.mp last]
        have longest := is_best.longest count (by omega) want ends
        push_cast
        omega

/-- Nothing but the empty beginning ends an empty text. -/
theorem best_nil (positive : 0 < bound) (within : bound ≤ word.length) :
    Best word [] bound (fun _ => True) 0 where
  low := by omega
  high := by exact_mod_cast positive
  ends _ := List.suffix_refl []
  -- Only a word without letters ends a text without letters.
  longest := by
    intro count below _ ends
    have none_ : (word.take count).length = 0 := by
      rw [List.suffix_nil.mp ends]
      rfl
    rw [List.length_take] at none_
    omega

/-- The empty word has no border. -/
theorem border_zero : Border word 0 (-1) where
  -- Nothing is shorter than nothing, so there is only -1.
  low := le_rfl
  high := by omega
  ends here := absurd here (by omega)
  longest count below := absurd below (Nat.not_lt_zero count)

end Borders

end SysProg
