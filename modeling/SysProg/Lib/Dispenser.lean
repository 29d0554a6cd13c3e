import SysProg.Lib.CInt
import Mathlib.Order.CompletePartialOrder

/-! Runs of numbers handed out by a 32-bit counter, which is read as a signed number. -/

namespace SysProg.Dispenser

/-- A run of numbers that was asked for, and where it starts, if its owner was told so. -/
structure Grant where
  asked : Int
  start : Option Int
  deriving DecidableEq, Repr

/-- The numbers that the owner of a run takes for its own. -/
def Grant.numbers (grant : Grant) : Set Int :=
  match grant.start with
  | some start => Set.Ico start (start + grant.asked)
  | none => ∅

/-- No number is in two runs. -/
def Distinct (grants : List Grant) : Prop :=
  grants.Pairwise fun first second => Disjoint first.numbers second.numbers

/-- How many numbers have been handed out. -/
def total (grants : List Grant) : Int :=
  (grants.map Grant.asked).sum

/--
A further run meets no earlier one.

A run that starts within the signed range is above all earlier ones. Once the counter has passed the
largest signed number the runs come up again from below, and may go up to the first one.
-/
def Room (first : BitVec 32) (grants : List Grant) (asked : Int) : Prop :=
  first.toInt + total grants < 2 ^ 31 ∨
    first.toInt + total grants + asked ≤ first.toInt + 2 ^ 32

instance (first : BitVec 32) (grants : List Grant) (asked : Int) :
    Decidable (Room first grants asked) :=
  inferInstanceAs (Decidable (_ ∨ _))

/-- A run lies at a place between the first number and the counter, before any wrapping. -/
structure Placed (first : BitVec 32) (grants : List Grant) (grant : Grant) (place : Int) :
    Prop where
  positive : 0 < grant.asked
  small : grant.asked < 2 ^ 31
  above : first.toInt ≤ place
  below : place + grant.asked ≤ first.toInt + total grants
  fits : place < 2 ^ 31 ∨ place + grant.asked ≤ first.toInt + 2 ^ 32

/-- What a counter and the runs it has handed out have to do with each other. -/
structure Accounts (first counter : BitVec 32) (grants : List Grant) : Prop where
  counter : counter = BitVec.ofInt 32 (first.toInt + total grants)
  /-- Each run has a place, and its owner is told at most this place, as the counter shows it. -/
  placed : ∀ grant ∈ grants, ∃ place, Placed first grants grant place ∧
    (grant.start = none ∨ grant.start = some (int place))
  distinct : Distinct grants

@[simp] theorem total_append (grants : List Grant) (grant : Grant) :
    total (grants ++ [grant]) = total grants + grant.asked := by
  simp [total]

/-- The signed range of 32-bit numbers. -/
theorem toInt_bounds (number : BitVec 32) : -2 ^ 31 ≤ number.toInt ∧ number.toInt < 2 ^ 31 := by
  -- The bounds of the library, with their powers written out.
  have low := number.le_toInt
  have high := number.toInt_lt
  norm_num at low high ⊢
  omega

/-- Before anything is handed out, the accounts are in order. -/
theorem Accounts.start (first : BitVec 32) : Accounts first first [] :=
  ⟨by simp [total], nofun, List.Pairwise.nil⟩

/-- Handing out numbers never makes the total smaller. -/
theorem Accounts.total_nonneg {first counter : BitVec 32} {grants : List Grant}
    (accounts : Accounts first counter grants) : 0 ≤ total grants := by
  -- Every grant is for a positive number.
  refine List.sum_nonneg fun asked mem => ?_
  obtain ⟨grant, granted, rfl⟩ := List.mem_map.mp mem
  obtain ⟨_, placed, _⟩ := accounts.placed grant granted
  exact placed.positive.le

/-- What the counter shows is the place of the next run, wrapped around. -/
theorem Accounts.toInt_counter {first counter : BitVec 32} {grants : List Grant}
    (accounts : Accounts first counter grants) :
    counter.toInt = int (first.toInt + total grants) := by
  rw [accounts.counter, BitVec.toInt_ofInt]
  rfl

/-- A run that has room has none of the numbers of an earlier run. -/
theorem Accounts.disjoint {first counter : BitVec 32} {grants : List Grant} {grant : Grant}
    {asked : Int} (accounts : Accounts first counter grants) (granted : grant ∈ grants)
    (room : Room first grants asked) {start : Option Int}
    (reads : start = none ∨ start = some counter.toInt) :
    Disjoint grant.numbers (Grant.numbers ⟨asked, start⟩) := by
  obtain ⟨place, ⟨positive, _, above, below, fits⟩, known⟩ := accounts.placed grant granted
  have bounds := toInt_bounds first
  have shown := accounts.toInt_counter
  -- An owner who was told nothing takes no numbers.
  rcases known with unknown | known
  · simp [Grant.numbers, unknown]
  rcases reads with unread | reads
  · simp [Grant.numbers, unread]
  simp only [Grant.numbers, known, reads]
  rw [Set.disjoint_left]
  intro number mine yours
  rw [Set.mem_Ico] at mine yours
  rcases room with low | wrapped
  · -- Both runs are where they look to be, one behind the other.
    rw [int_of_fits (by omega) low] at shown
    rw [int_of_fits (by omega) (by omega)] at mine
    omega
  · -- A run with a number in it that ends within the round starts within it.
    have short : first.toInt + total grants < 3 * 2 ^ 31 := by omega
    by_cases low : first.toInt + total grants < 2 ^ 31
    · rw [int_of_fits (by omega) low] at shown
      rw [int_of_fits (by omega) (by omega)] at mine
      omega
    · rw [int_of_ge (by omega) short] at shown
      by_cases before : place < 2 ^ 31
      · -- The new run has come up from below, and ends before the first number.
        rw [int_of_fits (by omega) before] at mine
        omega
      · rw [int_of_ge (by omega) (by omega)] at mine
        omega

/-- A place stays a place when more is handed out. -/
theorem Placed.append {first : BitVec 32} {grants : List Grant} {grant : Grant} {place : Int}
    (placed : Placed first grants grant place) {more : Grant} (nonneg : 0 ≤ more.asked) :
    Placed first (grants ++ [more]) grant place := by
  -- The place of a grant stays when more is granted behind it.
  obtain ⟨positive, small, above, below, fits⟩ := placed
  refine ⟨positive, small, above, ?_, fits⟩
  rw [total_append]
  omega

/-- The next run is placed where all runs so far end. -/
theorem Accounts.placed_next {first counter length : BitVec 32} {grants : List Grant}
    (accounts : Accounts first counter grants) (positive : 0 < length.toInt)
    (room : Room first grants length.toInt) (start : Option Int) :
    Placed first (grants ++ [⟨length.toInt, start⟩]) ⟨length.toInt, start⟩
      (first.toInt + total grants) := by
  -- The next grant begins where those before it end.
  have more := accounts.total_nonneg
  refine ⟨positive, (toInt_bounds length).2, by omega, ?_, room⟩
  rw [total_append]
  exact (Int.add_assoc _ _ _).le

/-- Handing out a run that has room keeps the accounts in order. -/
theorem Accounts.grant {first counter length : BitVec 32} {grants : List Grant}
    (accounts : Accounts first counter grants) (positive : 0 < length.toInt)
    (room : Room first grants length.toInt) {start : Option Int}
    (reads : start = none ∨ start = some counter.toInt) :
    Accounts first (counter + length) (grants ++ [⟨length.toInt, start⟩]) := by
  refine ⟨?_, fun grant mem => ?_, ?_⟩
  · rw [total_append, ← Int.add_assoc, BitVec.ofInt_add, ← accounts.counter]
    simp
  -- The earlier grants keep their places, and the new one has the next.
  · rcases List.mem_append.mp mem with earlier | last
    · obtain ⟨place, placed, known⟩ := accounts.placed grant earlier
      exact ⟨place, placed.append positive.le, known⟩
    · rw [List.mem_singleton.mp last]
      exact ⟨_, accounts.placed_next positive room start,
        reads.imp_right fun read => read.trans (congrArg some accounts.toInt_counter)⟩
  · refine List.pairwise_append.mpr ⟨accounts.distinct, List.pairwise_singleton _ _, ?_⟩
    -- What begins where all the others end is disjoint from them.
    intro grant granted other last
    rw [List.mem_singleton.mp last]
    exact accounts.disjoint granted room reads

/-- Every number from the first one up to the counter is in a run whose owner was told so. -/
def Covered (first : BitVec 32) (grants : List Grant) : Prop :=
  ∀ number, first.toInt ≤ number → number < first.toInt + total grants →
    ∃ grant ∈ grants, ∃ place, Placed first grants grant place ∧
      place ≤ number ∧ number < place + grant.asked ∧ grant.start = some (int place)

/-- Before anything is handed out, there is nothing to cover. -/
theorem covered_nil (first : BitVec 32) : Covered first [] := by
  intro number low high
  simp only [total, List.map_nil, List.sum_nil] at high
  omega

/-- Nothing is left out when every owner is told where its run starts. -/
theorem Accounts.covered_grant {first counter length : BitVec 32} {grants : List Grant}
    (accounts : Accounts first counter grants) (covered : Covered first grants)
    (positive : 0 < length.toInt) (room : Room first grants length.toInt) :
    Covered first (grants ++ [⟨length.toInt, some counter.toInt⟩]) := by
  intro number low high
  rw [total_append] at high
  by_cases earlier : number < first.toInt + total grants
  · obtain ⟨grant, granted, place, placed, found⟩ := covered number low earlier
    exact ⟨grant, List.mem_append_left _ granted, place, placed.append positive.le, found⟩
  · -- A number that is not in an earlier run is in the last one.
    refine ⟨_, List.mem_append_right _ (List.mem_singleton_self _), _,
      accounts.placed_next positive room _, by omega, ?_, by rw [accounts.toInt_counter]⟩
    dsimp only at high ⊢
    omega

/-- Runs that have had room each reach less than one and a half rounds. -/
theorem Covered.within {first : BitVec 32} {grants : List Grant} (covered : Covered first grants) :
    first.toInt + total grants < 3 * 2 ^ 31 := by
  have bounds := toInt_bounds first
  by_contra far
  -- The last number handed out is in a run that ends there.
  obtain ⟨grant, -, place, ⟨_, small, _, below, fits⟩, low, high, -⟩ :=
    covered (first.toInt + total grants - 1) (by omega) (by omega)
  omega

/-- A run without room has a number of an earlier run. -/
theorem Accounts.not_distinct {first counter length : BitVec 32} {grants : List Grant}
    (accounts : Accounts first counter grants) (covered : Covered first grants)
    (positive : 0 < length.toInt) (crowded : ¬ Room first grants length.toInt) :
    ¬ Distinct (grants ++ [⟨length.toInt, some counter.toInt⟩]) := by
  intro distinct
  have bounds := toInt_bounds first
  have within := covered.within
  have shown := accounts.toInt_counter
  simp only [Room, not_or, not_lt, not_le] at crowded
  rw [int_of_ge crowded.1 within] at shown
  -- The lowest number of the new run that is not below the first one was handed out before.
  obtain ⟨number, same⟩ : ∃ number,
      number = max (first.toInt + total grants - 2 ^ 32) first.toInt := ⟨_, rfl⟩
  obtain ⟨grant, granted, place, ⟨_, _, above, _, _⟩, low, high, start⟩ :=
    covered number (by omega) (by omega)
  rw [int_of_fits (by omega) (by omega)] at start
  have apart : Disjoint grant.numbers (Grant.numbers ⟨length.toInt, some counter.toInt⟩) :=
    (List.pairwise_append.mp distinct).2.2 grant granted _ (List.mem_singleton_self _)
  simp only [Grant.numbers, start] at apart
  have inBoth := Set.disjoint_left.mp apart
  exact inBoth (Set.mem_Ico.mpr ⟨low, high⟩) (Set.mem_Ico.mpr ⟨by omega, by omega⟩)

end SysProg.Dispenser
