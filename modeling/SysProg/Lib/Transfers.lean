import Mathlib.Tactic

/-! Calls that transfer a part of what they are asked for, and loops that repeat them. -/

namespace SysProg

/-- What a call does that is asked to transfer bytes. -/
inductive Transfer where
  /-- It transfers one byte and so many more, as far as it has been asked for them. -/
  | part (more : Nat)
  /-- It transfers nothing. -/
  | nothing
  /-- `EINTR`. -/
  | interrupted
  /-- Any other error. -/
  | error
  deriving DecidableEq, Repr

/-- How many bytes a call may transfer that is asked for so many. -/
def Transfer.amount (more asked : Nat) : Nat :=
  min (more + 1) asked

/-- A call that is asked for something may transfer something, and no more than that. -/
theorem Transfer.amount_bounds (more : Nat) {asked : Nat} (some_ : 0 < asked) :
    0 < amount more asked ∧ amount more asked ≤ asked := by
  unfold amount
  omega

/-- What successive calls do, of which only finitely many are interrupted, and none fails. -/
structure Schedule where
  answers : Nat → Transfer
  /-- From this call on, none is interrupted. -/
  last : Nat
  patient : ∀ call, last ≤ call → answers call ≠ .interrupted
  sound : ∀ call, answers call ≠ .nothing ∧ answers call ≠ .error

/-- With enough fuel, a computation comes to this result. -/
def Yields {Result : Type*} (compute : Nat → Option Result) (result : Result) : Prop :=
  ∃ enough, ∀ fuel, enough < fuel → compute fuel = some result

/-- A computation that has its result at once needs no fuel. -/
theorem Yields.pure {Result : Type*} (result : Result) : Yields (fun _ => some result) result :=
  ⟨0, fun _ _ => rfl⟩

/-- A computation that goes on as another one comes to the same result. -/
theorem Yields.step {Result : Type*} {compute next : Nat → Option Result} {result : Result}
    (goesOn : ∀ fuel, compute (fuel + 1) = next fuel) (later : Yields next result) :
    Yields compute result := by
  -- One more step needs one more unit of fuel.
  obtain ⟨enough, returns⟩ := later
  refine ⟨enough + 1, fun fuel more => ?_⟩
  obtain ⟨less, rfl⟩ := Nat.exists_eq_add_one_of_ne_zero (Nat.ne_zero_of_lt more)
  exact (goesOn less).trans (returns less (Nat.lt_of_succ_lt_succ more))

/-- A computation that ends in its first turn needs the fuel for one. -/
theorem Yields.last {Result : Type*} {compute : Nat → Option Result} {result : Result}
    (ends : ∀ fuel, compute (fuel + 1) = some result) : Yields compute result :=
  Yields.step ends (Yields.pure result)

/-- Two computations in a row come to the result of the second. -/
theorem Yields.bind {First Second : Type*} {compute : Nat → Option First}
    {next : First → Nat → Option Second} {first : First} {second : Second}
    (front : Yields compute first) (back : Yields (next first) second) :
    Yields (fun fuel => (compute fuel).bind fun first => next first fuel) second := by
  obtain ⟨before, front⟩ := front
  obtain ⟨after, back⟩ := back
  -- The fuel has to be enough for either.
  refine ⟨max before after, fun fuel enough => ?_⟩
  show (compute fuel).bind _ = _
  rw [front fuel (by omega), Option.bind_some, back fuel (by omega)]

/-- What is done with the result takes no fuel. -/
theorem Yields.map {First Second : Type*} {compute : Nat → Option First} {first : First}
    (result : Yields compute first) (f : First → Second) :
    Yields (fun fuel => (compute fuel).map f) (f first) := by
  -- The same fuel is enough.
  obtain ⟨enough, returns⟩ := result
  refine ⟨enough, fun fuel more => ?_⟩
  show (compute fuel).map f = _
  rw [returns fuel more, Option.map_some]

namespace Schedule

variable (schedule : Schedule)

/-- A call is interrupted, or it transfers a part. -/
theorem cases_answer (call : Nat) :
    (schedule.answers call = .interrupted ∧ call < schedule.last) ∨
      ∃ more, schedule.answers call = .part more := by
  -- The other two answers are excluded.
  obtain ⟨some_, succeeds⟩ := schedule.sound call
  cases answer : schedule.answers call with
  | part more => exact .inr ⟨more, rfl⟩
  | nothing => exact absurd answer some_
  | error => exact absurd answer succeeds
  | interrupted =>
    refine .inl ⟨rfl, ?_⟩
    by_contra late
    exact schedule.patient call (not_lt.mp late) answer

/--
A loop that makes one call in each turn comes to its end.

Each turn has to end the loop, or to leave less to do unless its call is interrupted.
-/
theorem loop_returns {State Result : Type*} (loop : Nat → Nat → State → Option Result)
    {good : State → Prop} {left : State → Nat} {done : Result → Prop}
    (turn : ∀ call state, good state →
      (∃ result, done result ∧ ∀ fuel, loop (fuel + 1) call state = some result) ∨
      ∃ next, good next ∧ (∀ fuel, loop (fuel + 1) call state = loop fuel (call + 1) next) ∧
        (left next < left state ∨ call < schedule.last ∧ left next ≤ left state))
    (call : Nat) {state : State} (holds : good state) :
    ∃ result, done result ∧ Yields (fun fuel => loop fuel call state) result := by
  -- Strong induction on what is left to do and on the calls that may still be interrupted.
  induction size : left state + (schedule.last - call) using Nat.strong_induction_on
    generalizing call state with
  | _ size_ ih =>
    rcases turn call state holds with ⟨result, right, ends⟩ | ⟨next, kept, goesOn, closer⟩
    · refine ⟨result, right, 0, fun fuel enough => ?_⟩
      obtain ⟨more, rfl⟩ := Nat.exists_eq_add_one_of_ne_zero (Nat.ne_zero_of_lt enough)
      exact ends more
    · have smaller : left next + (schedule.last - (call + 1)) < size_ := by
        rcases closer with less | ⟨early, less⟩
        · omega
        · omega
      obtain ⟨result, right, enough, returns⟩ := ih _ smaller (call + 1) kept rfl
      refine ⟨result, right, enough + 1, fun fuel more => ?_⟩
      obtain ⟨later, rfl⟩ := Nat.exists_eq_add_one_of_ne_zero (Nat.ne_zero_of_lt more)
      exact (goesOn later).trans (returns later (Nat.lt_of_succ_lt_succ more))

end Schedule

end SysProg
