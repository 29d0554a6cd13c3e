import SysProg.Lib.Machine

/-! Endless executions of a machine, and the rules for what fair ones must do eventually. -/

namespace SysProg.Machine

variable {State Action : Type*} {machine : Machine State Action}

/-- An endless execution, in which nothing may happen for a while or for good. -/
structure Execution (machine : Machine State Action) where
  state : Nat → State
  action : Nat → Option Action
  idles : ∀ time, action time = none → state (time + 1) = state time
  steps : ∀ time taken, action time = some taken →
    machine.step (state time) taken = some (state (time + 1))

namespace Execution

variable (execution : Execution machine)

/-- If some of these actions are possible again and again, some are taken again and again. -/
def Fair (mine : Action → Prop) : Prop :=
  (∀ time, ∃ later, time ≤ later ∧ ∃ action next, mine action ∧
    machine.step (execution.state later) action = some next) →
  ∀ time, ∃ later, time ≤ later ∧ ∃ action, mine action ∧ execution.action later = some action

variable {execution}

/-- What every step preserves holds at all times. -/
theorem invariant {good : State → Prop}
    (preserved : ∀ state action next,
      good state → machine.step state action = some next → good next)
    (holds : good (execution.state 0)) (time : Nat) : good (execution.state time) := by
  -- By induction on the time; an idle moment changes nothing.
  induction time with
  | zero => exact holds
  | succ time ih =>
    cases taken : execution.action time with
    | none => exact execution.idles time taken ▸ ih
    | some action => exact preserved _ _ _ ih (execution.steps time action taken)

/-- What every step preserves until something happens holds until it happens. -/
theorem holds_until (inside done : State → Prop)
    (stays : ∀ time action, inside (execution.state time) → execution.action time = some action →
      done (execution.state (time + 1)) ∨ inside (execution.state (time + 1)))
    {start : Nat} (holds : inside (execution.state start))
    (never : ∀ later, start ≤ later → ¬ done (execution.state later)) (later : Nat)
    (after : start ≤ later) : inside (execution.state later) := by
  -- By induction on the time from the start on.
  induction later, after using Nat.le_induction with
  | base => exact holds
  | succ later after ih =>
    cases taken : execution.action later with
    | none => exact execution.idles later taken ▸ ih
    | some action =>
      exact (stays later action ih taken).resolve_left (never (later + 1) (Nat.le_succ_of_le after))

/-- Whoever can always step, and comes closer to the end by every step, gets there. -/
theorem eventually_of_descent (inside done : State → Prop) (measure : State → Nat)
    {mine : Action → Prop} (fair : execution.Fair mine)
    (enabled : ∀ time, inside (execution.state time) → ∃ action next, mine action ∧
      machine.step (execution.state time) action = some next)
    (stays : ∀ time action, inside (execution.state time) → execution.action time = some action →
      done (execution.state (time + 1)) ∨ inside (execution.state (time + 1)) ∧
        measure (execution.state (time + 1)) ≤ measure (execution.state time) ∧
        (mine action → measure (execution.state (time + 1)) < measure (execution.state time)))
    {start : Nat} (holds : inside (execution.state start)) :
    ∃ later, start ≤ later ∧ done (execution.state later) := by
  -- Strong induction on the measure; fairness provides the step that lowers it.
  induction size : measure (execution.state start) using Nat.strong_induction_on
    generalizing start with
  | _ size_ ih =>
    by_contra notDone
    have never : ∀ later, start ≤ later → ¬ done (execution.state later) := fun later after done =>
      notDone ⟨later, after, done⟩
    have bounded : ∀ later, start ≤ later →
        inside (execution.state later) ∧ measure (execution.state later) ≤ size_ := by
      refine fun later after =>
        holds_until (fun state => inside state ∧ measure state ≤ size_) done
          (fun time action here taken => ?_) ⟨holds, size.le⟩ never later after
      exact (stays time action here.1 taken).imp_right fun kept => ⟨kept.1, kept.2.1.trans here.2⟩
    have recurs : ∀ time, ∃ later, time ≤ later ∧ ∃ action next, mine action ∧
        machine.step (execution.state later) action = some next := fun time =>
      ⟨max time start, le_max_left time start,
        enabled _ (bounded _ (le_max_right time start)).1⟩
    obtain ⟨later, after, action, own, taken⟩ := fair recurs start
    obtain ⟨kept, _, smaller⟩ := (stays later action (bounded later after).1 taken).resolve_left
      (never (later + 1) (Nat.le_succ_of_le after))
    obtain ⟨final, afterwards, done⟩ :=
      ih _ (lt_of_lt_of_le (smaller own) (bounded later after).2) kept rfl
    exact never final (by omega) done

/-- Whoever waits for one step, and can take it again and again as long as it waits, takes it. -/
theorem eventually_of_recurrence (inside done : State → Prop) {mine : Action → Prop}
    (fair : execution.Fair mine)
    (recurs : ∀ time, (∀ later, time ≤ later → inside (execution.state later)) →
      ∃ later, time ≤ later ∧ ∃ action next,
        mine action ∧ machine.step (execution.state later) action = some next)
    (stays : ∀ time action, inside (execution.state time) → execution.action time = some action →
      done (execution.state (time + 1)) ∨ inside (execution.state (time + 1)) ∧ ¬ mine action)
    {start : Nat} (holds : inside (execution.state start)) :
    ∃ later, start ≤ later ∧ done (execution.state later) := by
  by_contra notDone
  -- Otherwise the condition would hold for ever.
  have never : ∀ later, start ≤ later → ¬ done (execution.state later) := fun later after done =>
    notDone ⟨later, after, done⟩
  have waits := holds_until inside done (fun time action here taken =>
    (stays time action here taken).imp_right And.left) holds never
  -- Then the action would be possible again and again, so it is taken once, by fairness.
  have again : ∀ time, ∃ later, time ≤ later ∧ ∃ action next, mine action ∧
      machine.step (execution.state later) action = some next := fun time => by
    obtain ⟨later, after, able⟩ := recurs (max time start) fun later after =>
      waits later ((le_max_right time start).trans after)
    exact ⟨later, (le_max_left time start).trans after, able⟩
  obtain ⟨later, after, action, own, taken⟩ := fair again start
  exact ((stays later action (waits later after) taken).resolve_left
    (never (later + 1) (Nat.le_succ_of_le after))).2 own

end Execution

end SysProg.Machine
