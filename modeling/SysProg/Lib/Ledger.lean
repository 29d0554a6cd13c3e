import Mathlib.Tactic

/-! Ledgers of items that are each found at one place at most, and how moving an item keeps them. -/

namespace SysProg

variable {Item Place : Type*} [DecidableEq Place]

/-- Every item is found at one place at most, and once there. -/
def Ledger (count : Item → Place → Nat) : Prop :=
  ∀ item, ∃ home, ∀ place, count item place ≤ if place = home then 1 else 0

namespace Ledger

variable {count before after : Item → Place → Nat}

/-- An item that is found at a place is found nowhere else. -/
theorem eq_zero_of_pos (ledger : Ledger count) {item : Item} {place : Place} (other : Place)
    (found : 0 < count item place) (different : other ≠ place) : count item other = 0 := by
  obtain ⟨home, counts⟩ := ledger item
  have here := counts place
  have there := counts other
  -- The item has one home, and a place where it is found is that.
  by_cases same : place = home
  · simpa [← same, different] using there
  · rw [if_neg same] at here
    omega

/-- No item is found anywhere more than once. -/
theorem le_one (ledger : Ledger count) (item : Item) (place : Place) : count item place ≤ 1 := by
  obtain ⟨home, counts⟩ := ledger item
  exact (counts place).trans (by split <;> omega)

/-- Finding less keeps a ledger. -/
theorem shrink (ledger : Ledger before)
    -- The homes stay, and fewer are counted there.
    (less : ∀ item place, after item place ≤ before item place) :
    Ledger after := fun item => by
  obtain ⟨home, counts⟩ := ledger item
  exact ⟨home, fun place => (less item place).trans (counts place)⟩

variable [DecidableEq Item]

/-- At most one item goes from one place to another, and nothing else is found more often. -/
structure Transfer (before after : Item → Place → Nat) (item : Item)
    (source target : Place) : Prop where
  different : source ≠ target
  moves : ∀ other place,
    after other place + (if other = item ∧ place = source then 1 else 0) ≤
      before other place + (if other = item ∧ place = target then 1 else 0)

/-- Taking an item from one place to another keeps a ledger. -/
theorem transfer {item : Item} {source target : Place} (ledger : Ledger before)
    (transfer : Transfer before after item source target) : Ledger after := by
  intro other
  obtain ⟨home, counts⟩ := ledger other
  by_cases same : other = item
  · subst same
    -- The place it is taken from must be the one where it was found.
    have atSource : source = home := by
      by_contra elsewhere
      have moves := transfer.moves other source
      have nowhere := counts source
      simp only [true_and, if_true, transfer.different, if_neg elsewhere, if_false] at moves nowhere
      omega
    refine ⟨target, fun place => ?_⟩
    have moves := transfer.moves other place
    have found := counts place
    simp only [true_and, atSource] at moves
    omega
  · refine ⟨home, fun place => ?_⟩
    have moves := transfer.moves other place
    simp only [same, false_and, if_false, Nat.add_zero] at moves
    exact moves.trans (counts place)

end Ledger

end SysProg
