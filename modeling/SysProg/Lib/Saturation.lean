import Mathlib.Data.List.Dedup
import Mathlib.Tactic

/-! What can be inferred from what is known, until nothing new can be. -/

namespace SysProg

variable {Fact : Type*} [DecidableEq Fact]

/-- What can be inferred and is not known yet. -/
def newFacts (infer : List Fact → List Fact) (known : List Fact) : List Fact :=
  (infer known).filter fun fact => fact ∉ known

/-- Adding what is new at most so often, or until nothing is. -/
def saturate (infer : List Fact → List Fact) : Nat → List Fact → List Fact
  | 0, known => known
  | rounds + 1, known =>
    match newFacts infer known with
    | [] => known
    | fact :: facts => saturate infer rounds (known ++ fact :: facts)

variable {infer : List Fact → List Fact} {rounds : Nat} {known : List Fact}

theorem mem_newFacts {fact : Fact} :
    fact ∈ newFacts infer known ↔ fact ∈ infer known ∧ fact ∉ known := by
  simp [newFacts]

/-- Whatever inference keeps is true of all that has been added. -/
theorem saturate_sound {holds : Fact → Prop}
    (sound : ∀ known, (∀ fact ∈ known, holds fact) → ∀ fact ∈ infer known, holds fact)
    (start : ∀ fact ∈ known, holds fact) : ∀ fact ∈ saturate infer rounds known, holds fact := by
  -- By induction on the rounds, each of which infers from what holds.
  induction rounds generalizing known with
  | zero => exact start
  | succ rounds ih =>
    rw [saturate]
    split
    · exact start
    next first facts new =>
      refine ih fun fact mem => ?_
      rw [← new] at mem
      rcases List.mem_append.mp mem with old | new_
      · exact start fact old
      · exact sound known start fact (mem_newFacts.mp new_).1

/-- Within finitely many facts, as many rounds are enough to know all that can be inferred. -/
theorem saturate_closed {possible : List Fact}
    (within : ∀ known, (∀ fact ∈ known, fact ∈ possible) → ∀ fact ∈ infer known, fact ∈ possible)
    (start : ∀ fact ∈ known, fact ∈ possible)
    (enough : (possible.filter fun fact => fact ∉ known).length ≤ rounds) :
    ∀ fact ∈ infer (saturate infer rounds known), fact ∈ saturate infer rounds known := by
  -- The facts that are not known become fewer in each round.
  induction rounds generalizing known with
  | zero =>
    intro fact mem
    have none_ := List.length_eq_zero_iff.mp (Nat.le_zero.mp enough)
    have there := within known start fact mem
    have known_ := List.filter_eq_nil_iff.mp none_ fact there
    simpa [saturate] using known_
  | succ rounds ih =>
    rw [saturate]
    split
    next new =>
      intro fact mem
      by_contra out
      have found : fact ∈ newFacts infer known := mem_newFacts.mpr ⟨mem, out⟩
      rw [new] at found
      exact List.not_mem_nil found
    next first facts new =>
      have first_ : first ∈ infer known ∧ first ∉ known := by
        rw [← mem_newFacts, new]
        exact List.mem_cons_self
      refine ih ?_ ?_
      · intro fact mem
        rw [← new] at mem
        rcases List.mem_append.mp mem with old | new_
        · exact start fact old
        · exact within known start fact (mem_newFacts.mp new_).1
      · have fewer : (possible.filter fun fact => fact ∉ known ++ first :: facts).length <
            (possible.filter fun fact => fact ∉ known).length := by
          have sub : (possible.filter fun fact => fact ∉ known ++ first :: facts).Sublist
              (possible.filter fun fact => fact ∉ known) := by
            refine List.monotone_filter_right possible fun fact out => ?_
            simp only [decide_eq_true_eq] at out ⊢
            exact fun mem => out (List.mem_append_left _ mem)
          refine lt_of_le_of_ne sub.length_le fun same => ?_
          -- The first of the new facts is no longer among the unknown ones.
          have mem : first ∈ possible.filter fun fact => fact ∉ known := by
            refine List.mem_filter.mpr ⟨within known start first first_.1, ?_⟩
            simpa using first_.2
          rw [← sub.eq_of_length same] at mem
          simpa using (List.mem_filter.mp mem).2
        omega

end SysProg
