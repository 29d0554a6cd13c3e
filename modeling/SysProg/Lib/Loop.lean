import Mathlib.Tactic

/-! Loops whose bodies may be undefined, with the rule for their total correctness. -/

namespace SysProg

/-- A loop with a condition, and with a body that has no result where it is undefined. -/
structure Loop (State : Type*) where
  /-- Whether the loop goes round again. -/
  more : State → Bool
  /-- What the body makes of the variables. -/
  body : State → Option State

namespace Loop

variable {State : Type*}

/-- Going round at most so often, with no result when this is not enough. -/
def run (loop : Loop State) : Nat → State → Option State
  | 0, state => if loop.more state then none else some state
  | rounds + 1, state =>
    if loop.more state then (loop.body state).bind (run loop rounds) else some state

variable {loop : Loop State}

/-- A loop whose variant gets smaller in each round ends, and its invariant holds then. -/
theorem run_total {good : State → Prop} {variant : State → Nat}
    (body : ∀ state, good state → loop.more state = true →
      ∃ next, loop.body state = some next ∧ good next ∧ variant next < variant state)
    {rounds : Nat} {start : State} (holds : good start) (enough : variant start ≤ rounds) :
    ∃ finish, loop.run rounds start = some finish ∧ good finish ∧ loop.more finish = false := by
  -- The induction is on the rounds that are left, which are never fewer than the variant.
  induction rounds generalizing start with
  | zero =>
    cases more : loop.more start with
    | false =>
      refine ⟨start, ?_, holds, more⟩
      simp [run, more]
    | true =>
      -- Another round would need a variant below 0.
      obtain ⟨next, _, _, lower⟩ := body start holds more
      omega
  | succ rounds ih =>
    cases more : loop.more start with
    | false =>
      refine ⟨start, ?_, holds, more⟩
      simp [run, more]
    | true =>
      obtain ⟨next, stepped, keeps, lower⟩ := body start holds more
      obtain ⟨finish, ran, kept, ended⟩ := ih keeps (by omega)
      refine ⟨finish, ?_, kept, ended⟩
      simp [run, more, stepped, ran]

/-- A loop that has ended does the same if it may go round more often. -/
theorem run_mono {rounds : Nat} {start finish : State} (ran : loop.run rounds start = some finish)
    (more : Nat) : loop.run (rounds + more) start = some finish := by
  -- By induction on the rounds; once the loop has ended, more of them change nothing.
  induction rounds generalizing start with
  | zero =>
    cases going : loop.more start with
    | false =>
      have same : some start = some finish := by simpa [run, going] using ran
      cases more with
      | zero => exact ran
      | succ more => simp [run, going, same]
    | true => simp [run, going] at ran
  | succ rounds ih =>
    rw [Nat.succ_add_eq_add_succ, Nat.add_succ]
    cases going : loop.more start with
    | false => simpa [run, going] using ran
    | true =>
      simp only [run, going, if_true] at ran ⊢
      obtain ⟨next, stepped, ran_⟩ := Option.bind_eq_some_iff.mp ran
      rw [stepped]
      exact ih ran_

/-- The loop ends in this state, after however many rounds. -/
inductive Ends (loop : Loop State) : State → State → Prop
  | stop {state : State} (ended : loop.more state = false) : Ends loop state state
  | round {state next finish : State} (more : loop.more state = true)
    (stepped : loop.body state = some next) (later : Ends loop next finish) :
    Ends loop state finish

/-- A loop that ends does so whenever it may go round often enough. -/
theorem Ends.run {start finish : State} (ends : loop.Ends start finish) :
    ∃ enough, ∀ rounds, enough ≤ rounds → loop.run rounds start = some finish := by
  -- By induction on the rounds up to the end, one more for each.
  induction ends with
  | @stop state ended =>
    refine ⟨0, fun rounds _ => ?_⟩
    cases rounds with
    | zero => simp [Loop.run, ended]
    | succ rounds => simp [Loop.run, ended]
  | @round state next finish more stepped later ih =>
    obtain ⟨enough, ran⟩ := ih
    refine ⟨enough + 1, fun rounds bound => ?_⟩
    cases rounds with
    | zero => omega
    | succ rounds => simp [Loop.run, more, stepped, ran rounds (by omega)]

/-- What every round keeps is true when the loop ends. -/
theorem Ends.keeps {good : State → Prop} {start finish : State} (ends : loop.Ends start finish)
    (body : ∀ state next, good state → loop.more state = true → loop.body state = some next →
      good next) (holds : good start) : good finish ∧ loop.more finish = false := by
  -- By induction on the rounds up to the end.
  induction ends with
  | stop ended => exact ⟨holds, ended⟩
  | @round state next finish more stepped later ih => exact ih (body state next holds more stepped)

end Loop

end SysProg
