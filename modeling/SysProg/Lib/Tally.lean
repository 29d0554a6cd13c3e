import Mathlib.Algebra.BigOperators.Fin
import Mathlib.Algebra.Order.BigOperators.Group.Finset
import Mathlib.Tactic

/-! Weighing the members of a finite family, and how the total moves when one member moves. -/

namespace SysProg

variable {ι α : Type*} [Fintype ι]

/-- The total weight of a family of places. -/
def tally (weight : α → Nat) (places : ι → α) : Nat :=
  ∑ i, weight (places i)

/-- Each member weighs no more than the whole family. -/
theorem le_tally (weight : α → Nat) (places : ι → α) (i : ι) :
    weight (places i) ≤ tally weight places :=
  Finset.single_le_sum (fun j _ => Nat.zero_le (weight (places j))) (Finset.mem_univ i)

/-- A family of positive weight has a member of positive weight. -/
theorem exists_of_tally_pos {weight : α → Nat} {places : ι → α}
    (positive : 0 < tally weight places) : ∃ i, 0 < weight (places i) := by
  -- Otherwise all would weigh nothing.
  by_contra none_
  have zero : tally weight places = 0 :=
    Finset.sum_eq_zero fun i _ => by
      by_contra heavy
      exact none_ ⟨i, Nat.pos_of_ne_zero heavy⟩
  omega

/-- A family weighs nothing exactly when no member weighs anything. -/
theorem tally_eq_zero_iff {weight : α → Nat} {places : ι → α} :
    tally weight places = 0 ↔ ∀ i, weight (places i) = 0 := by
  simp [tally]

/-- A family of members that weigh one each has its size as its weight. -/
theorem tally_eq_card {weight : α → Nat} {places : ι → α} (each : ∀ i, weight (places i) = 1) :
    tally weight places = Fintype.card ι := by
  simp [tally, each]

/-- A family of members that weigh one at most weighs no more than its size. -/
theorem tally_le_card {weight : α → Nat} {places : ι → α} (each : ∀ i, weight (places i) ≤ 1) :
    tally weight places ≤ Fintype.card ι := by
  have most := Finset.sum_le_card_nsmul Finset.univ (fun i => weight (places i)) 1 fun i _ => each i
  rwa [smul_eq_mul, mul_one] at most

/-- If that is its weight, then each of them weighs one. -/
theorem eq_one_of_tally_eq_card {weight : α → Nat} {places : ι → α}
    (each : ∀ i, weight (places i) ≤ 1) (full : tally weight places = Fintype.card ι) (i : ι) :
    weight (places i) = 1 := by
  -- Together they weigh as much as they are, and none weighs more than one.
  have ones : ∑ j, weight (places j) = ∑ _j : ι, 1 := by
    rw [Finset.sum_const, smul_eq_mul, mul_one]
    exact full
  exact (Finset.sum_eq_sum_iff_of_le fun j _ => each j).mp ones i (Finset.mem_univ i)

/-- A lighter family weighs no more. -/
theorem tally_mono {weight : α → Nat} {before after : ι → α}
    (each : ∀ i, weight (after i) ≤ weight (before i)) :
    tally weight after ≤ tally weight before :=
  Finset.sum_le_sum fun i _ => each i

variable [DecidableEq ι]

/-- Moving one member changes a sum by what that member contributes. -/
theorem sum_update_add {M : Type*} [AddCommMonoid M] (weight : ι → α → M) (places : ι → α) (i : ι)
    (place : α) :
    ∑ j, weight j (Function.update places i place j) + weight i (places i) =
      ∑ j, weight j (places j) + weight i place := by
  -- Both sides are the weight of all other members plus the two weights of this one.
  have split : ∀ family : ι → α, ∑ j, weight j (family j) =
      weight i (family i) + ∑ j ∈ Finset.univ.erase i, weight j (family j) :=
    fun family => (Finset.add_sum_erase _ _ (Finset.mem_univ i)).symm
  have others : ∑ j ∈ Finset.univ.erase i, weight j (Function.update places i place j) =
      ∑ j ∈ Finset.univ.erase i, weight j (places j) :=
    Finset.sum_congr rfl fun j other => by
      rw [Function.update_of_ne (Finset.ne_of_mem_erase other)]
  rw [split (Function.update places i place), split places, others, Function.update_self]
  abel

/-- Moving one member changes the total by what that member's weight changes. -/
theorem tally_update (weight : α → Nat) (places : ι → α) (i : ι) (place : α) :
    tally weight (Function.update places i place) + weight (places i) =
      tally weight places + weight place :=
  sum_update_add (fun _ => weight) places i place

end SysProg
