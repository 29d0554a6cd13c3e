import Mathlib.Tactic

/-! Machines whose actions may be blocked: their runs, and the rules that prove facts about runs. -/

namespace SysProg

/-- The numbers of one, two or three parties that take part in a run begin with 0. -/
instance neZeroOne : NeZero 1 := ⟨by decide⟩
instance neZeroTwo : NeZero 2 := ⟨by decide⟩
instance neZeroThree : NeZero 3 := ⟨by decide⟩

/-- A transition function for each state and action, where a blocked action has no result. -/
structure Machine (State Action : Type*) where
  /-- What one action makes of a state, or nothing when the action is blocked there. -/
  step : State → Action → Option State

namespace Machine

variable {State Action : Type*} (machine : Machine State Action)

/-- Taking a list of actions in order, stopping with nothing at the first blocked one. -/
def run : State → List Action → Option State
  | state, [] => some state
  | state, action :: rest => (machine.step state action).bind fun next => run next rest

/-- One state is reached from another by some list of actions. -/
def Reaches (start finish : State) : Prop :=
  ∃ actions, machine.run start actions = some finish

/-- Among the actions of a run there is one, taken in some state, of which this is true. -/
def Took (start : State) (actions : List Action) (happened : State → Action → Prop) : Prop :=
  ∃ past action rest moment, actions = past ++ action :: rest ∧
    machine.run start past = some moment ∧ happened moment action

/-- Every action of a list is admitted in the state in which the run takes it. -/
def Along (admitted : State → Action → Prop) : State → List Action → Prop
  | _, [] => True
  | state, action :: rest =>
    admitted state action ∧ ∀ next, machine.step state action = some next → Along admitted next rest

/-- Every state that the run passes through is one of these, the first and the last included. -/
def Throughout (good : State → Prop) : State → List Action → Prop
  | state, [] => good state
  | state, action :: rest =>
    good state ∧ ∀ next, machine.step state action = some next → Throughout good next rest

@[simp] theorem run_nil (state : State) : machine.run state [] = some state := rfl

/-- A run that starts with an action is that action followed by the rest of the run. -/
theorem run_cons_eq_some {start finish : State} {action : Action} {rest : List Action} :
    machine.run start (action :: rest) = some finish ↔
      ∃ middle, machine.step start action = some middle ∧
        machine.run middle rest = some finish := by
  simp [run, Option.bind_eq_some_iff]

/-- Running two lists in a row is running the second from where the first ends. -/
theorem run_append (start : State) (front back : List Action) :
    machine.run start (front ++ back) =
      (machine.run start front).bind fun middle => machine.run middle back := by
  -- The induction takes the actions of the first list one at a time.
  induction front generalizing start with
  | nil => rfl
  | cons action rest ih =>
    simp only [List.cons_append, run]
    cases machine.step start action with
    | none => rfl
    | some next => exact ih next

variable {machine}

/-- Every state reaches itself by doing nothing. -/
theorem Reaches.refl (state : State) : machine.Reaches state state := ⟨[], rfl⟩

/-- Reaching is transitive. -/
theorem Reaches.trans {first second third : State} (front : machine.Reaches first second)
    (back : machine.Reaches second third) : machine.Reaches first third := by
  obtain ⟨before, reached⟩ := front
  obtain ⟨after, finished⟩ := back
  exact ⟨before ++ after, by rw [run_append, reached, Option.bind_some, finished]⟩

/-- A single action reaches its result. -/
theorem Reaches.single {state next : State} {action : Action}
    (stepped : machine.step state action = some next) : machine.Reaches state next :=
  ⟨[action], by simp [run, stepped]⟩

/-- What every admitted step preserves, every run of admitted steps preserves. -/
theorem run_invariant_along {good : State → Prop} {admitted : State → Action → Prop}
    (preserved : ∀ state action next, good state → admitted state action →
      machine.step state action = some next → good next)
    {start finish : State} {actions : List Action} (holds : good start)
    (along : machine.Along admitted start actions)
    (ran : machine.run start actions = some finish) : good finish := by
  -- The induction follows the run, carrying the invariant over one step at a time.
  induction actions generalizing start with
  | nil =>
    rw [run_nil, Option.some.injEq] at ran
    exact ran ▸ holds
  | cons action rest ih =>
    obtain ⟨middle, stepped, remaining⟩ := machine.run_cons_eq_some.mp ran
    exact ih (preserved _ _ _ holds along.1 stepped) (along.2 middle stepped) remaining

/-- A condition that none of these actions can break is met along every run of them. -/
theorem along_of_mem {admitted : State → Action → Prop} {actions : List Action}
    (always : ∀ action ∈ actions, ∀ state, admitted state action) (start : State) :
    machine.Along admitted start actions := by
  -- By induction on the actions.
  induction actions generalizing start with
  | nil => trivial
  | cons action rest ih =>
    exact ⟨always action List.mem_cons_self start, fun next _ =>
      ih (fun later mem => always later (List.mem_cons_of_mem _ mem)) next⟩

/-- Along a run of admitted steps an invariant can turn what is admitted into something else. -/
theorem Along.weaken {good : State → Prop} {admitted required : State → Action → Prop}
    (preserved : ∀ state action next, good state → admitted state action →
      machine.step state action = some next → good next)
    (met : ∀ state action, good state → admitted state action → required state action)
    {start : State} {actions : List Action} (holds : good start)
    (along : machine.Along admitted start actions) : machine.Along required start actions := by
  -- The invariant travels with the run, so it is there wherever an action is judged.
  induction actions generalizing start with
  | nil => trivial
  | cons action rest ih =>
    refine ⟨met start action holds along.1, fun next stepped => ?_⟩
    exact ih (preserved start action next holds along.1 stepped) (along.2 next stepped)

/-- A run passes through the state that it starts in. -/
theorem Throughout.start {good : State → Prop} {start : State} {actions : List Action}
    (throughout : machine.Throughout good start actions) : good start := by
  cases actions with
  | nil => exact throughout
  | cons action rest => exact throughout.1

/-- A run passes through the state that it ends in. -/
theorem Throughout.finish {good : State → Prop} {start finish : State} {actions : List Action}
    (throughout : machine.Throughout good start actions)
    (ran : machine.run start actions = some finish) : good finish := by
  -- By induction on the run, whose last state is the one asked for.
  induction actions generalizing start with
  | nil =>
    rw [run_nil, Option.some.injEq] at ran
    exact ran ▸ throughout
  | cons action rest ih =>
    obtain ⟨middle, stepped, remaining⟩ := machine.run_cons_eq_some.mp ran
    exact ih (throughout.2 middle stepped) remaining

/-- If a step leads to a good state just when it is admitted, so it is with a run. -/
theorem throughout_iff_along {invariant good : State → Prop} {admitted : State → Action → Prop}
    (enough : ∀ state, invariant state → good state)
    (preserved : ∀ state action next, invariant state → admitted state action →
      machine.step state action = some next → invariant next)
    (needed : ∀ state action next, invariant state → machine.step state action = some next →
      good next → admitted state action)
    {start finish : State} {actions : List Action} (holds : invariant start)
    (ran : machine.run start actions = some finish) :
    machine.Throughout good start actions ↔ machine.Along admitted start actions := by
  -- As long as the steps are admitted, the invariant is there to judge the next one.
  induction actions generalizing start with
  | nil => exact iff_of_true (enough start holds) trivial
  | cons action rest ih =>
    obtain ⟨middle, stepped, remaining⟩ := machine.run_cons_eq_some.mp ran
    constructor
    · rintro ⟨_, later⟩
      have allowed := needed start action middle holds stepped (later middle stepped).start
      refine ⟨allowed, fun next same => ?_⟩
      obtain rfl : middle = next := Option.some.inj (stepped.symm.trans same)
      exact (ih (preserved start action middle holds allowed stepped) remaining).mp
        (later middle stepped)
    · rintro ⟨allowed, later⟩
      refine ⟨enough start holds, fun next same => ?_⟩
      obtain rfl : middle = next := Option.some.inj (stepped.symm.trans same)
      exact (ih (preserved start action middle holds allowed stepped) remaining).mpr
        (later middle stepped)

/-- What holds along a run holds of the action taken after any of its beginnings. -/
theorem Along.of_run {admitted : State → Action → Prop} {start state : State}
    {front back : List Action} {action : Action}
    (along : machine.Along admitted start (front ++ action :: back))
    (ran : machine.run start front = some state) : admitted state action := by
  -- By induction on the part of the run before the action.
  induction front generalizing start with
  | nil =>
    rw [run_nil, Option.some.injEq] at ran
    exact ran ▸ along.1
  | cons first rest ih =>
    obtain ⟨middle, stepped, remaining⟩ := machine.run_cons_eq_some.mp ran
    exact ih (along.2 middle stepped) remaining

/-- Whether every action is admitted can be found out by taking the run. -/
instance Along.decidable (admitted : State → Action → Prop)
    [∀ state action, Decidable (admitted state action)] :
    ∀ (actions : List Action) (start : State), Decidable (machine.Along admitted start actions)
  | [], _ => isTrue trivial
  | action :: rest, start =>
    match stepped : machine.step start action with
    | none => decidable_of_iff (admitted start action) (by simp [Along, stepped])
    | some next =>
      have := Along.decidable admitted rest next
      decidable_of_iff (admitted start action ∧ machine.Along admitted next rest)
        (by simp [Along, stepped])

/-- What every step preserves, every run preserves. -/
theorem run_invariant {good : State → Prop}
    (preserved : ∀ state action next,
      good state → machine.step state action = some next → good next)
    {start finish : State} {actions : List Action} (holds : good start)
    (ran : machine.run start actions = some finish) : good finish := by
  -- Every action is admitted, so the invariant is kept along the run.
  have unrestricted : machine.Along (fun _ _ => True) start actions :=
    along_of_mem (fun _ _ _ => trivial) start
  exact run_invariant_along (fun state action next good _ => preserved state action next good)
    holds unrestricted ran

/-- An invariant of single steps holds in every state a good state reaches. -/
theorem Reaches.invariant {good : State → Prop}
    (preserved : ∀ state action next,
      good state → machine.step state action = some next → good next)
    {start finish : State} (reaches : machine.Reaches start finish) (holds : good start) :
    good finish := by
  obtain ⟨actions, ran⟩ := reaches
  exact run_invariant preserved holds ran

/-- What every step preserves with the actions behind it, every run preserves. -/
theorem run_history {good : List Action → State → Prop} {start : State}
    (preserved : ∀ past state action next, machine.run start past = some state →
      good past state → machine.step state action = some next → good (past ++ [action]) next)
    (holds : good [] start) {actions : List Action} {finish : State}
    (ran : machine.run start actions = some finish) : good actions finish := by
  -- The induction takes the last action off, so that the past is a run of its own.
  induction actions using List.reverseRecOn generalizing finish with
  | nil =>
    rw [run_nil, Option.some.injEq] at ran
    exact ran ▸ holds
  | append_singleton past action ih =>
    rw [run_append, Option.bind_eq_some_iff] at ran
    obtain ⟨state, before, last⟩ := ran
    obtain ⟨next, stepped, ended⟩ := machine.run_cons_eq_some.mp last
    rw [run_nil, Option.some.injEq] at ended
    exact ended ▸ preserved past state action next before (ih before) stepped

/-- What happened is not undone by what follows. -/
theorem Took.mono {start : State} {actions more : List Action} {happened : State → Action → Prop}
    {known : State → Action → Prop} (took : machine.Took start actions happened)
    (enough : ∀ moment action, happened moment action → known moment action) :
    machine.Took start (actions ++ more) known := by
  obtain ⟨past, action, rest, moment, split, before, holds⟩ := took
  refine ⟨past, action, rest ++ more, moment, ?_, before, enough moment action holds⟩
  rw [split, List.append_assoc, List.cons_append]

/-- The action that is taken last has been taken. -/
theorem Took.last {start moment : State} {past : List Action} {action : Action}
    {happened : State → Action → Prop} (before : machine.run start past = some moment)
    (holds : happened moment action) : machine.Took start (past ++ [action]) happened :=
  ⟨past, action, [], moment, rfl, before, holds⟩

/-- A measure that progress lowers and nothing admitted raises bounds the progress of a run. -/
theorem run_progress_le_along {good : State → Prop} {admitted : State → Action → Prop}
    {progress : Action → Bool} {measure : State → Nat}
    (preserved : ∀ state action next,
      good state → machine.step state action = some next → good next)
    (lowered : ∀ state action next, good state → admitted state action →
      machine.step state action = some next →
      measure next + (if progress action then 1 else 0) ≤ measure state)
    {start finish : State} {actions : List Action} (holds : good start)
    (along : machine.Along admitted start actions)
    (ran : machine.run start actions = some finish) :
    actions.countP progress + measure finish ≤ measure start := by
  -- Each action pays for itself out of the measure of the state it is taken in.
  induction actions generalizing start with
  | nil =>
    rw [run_nil, Option.some.injEq] at ran
    simp [ran]
  | cons action rest ih =>
    obtain ⟨middle, stepped, remaining⟩ := machine.run_cons_eq_some.mp ran
    have paid := lowered _ _ _ holds along.1 stepped
    have later := ih (preserved _ _ _ holds stepped) (along.2 middle stepped) remaining
    rw [List.countP_cons]
    omega

/-- A measure that progress lowers and nothing raises bounds the progress made by any run. -/
theorem run_progress_le {good : State → Prop} {progress : Action → Bool} {measure : State → Nat}
    (preserved : ∀ state action next,
      good state → machine.step state action = some next → good next)
    (lowered : ∀ state action next, good state → machine.step state action = some next →
      measure next + (if progress action then 1 else 0) ≤ measure state)
    {start finish : State} {actions : List Action} (holds : good start)
    (ran : machine.run start actions = some finish) :
    actions.countP progress + measure finish ≤ measure start := by
  -- Every action is admitted, so the bound is that of a run along which all are.
  have unrestricted : machine.Along (fun _ _ => True) start actions :=
    along_of_mem (fun _ _ _ => trivial) start
  exact run_progress_le_along preserved
    (fun state action next good _ => lowered state action next good)
    holds unrestricted ran

/-- A measure that every step lowers bounds the length of any run. -/
theorem run_length_le {good : State → Prop} {measure : State → Nat}
    (preserved : ∀ state action next,
      good state → machine.step state action = some next → good next)
    (lowered : ∀ state action next, good state → machine.step state action = some next →
      measure next < measure state)
    {start finish : State} {actions : List Action} (holds : good start)
    (ran : machine.run start actions = some finish) :
    actions.length + measure finish ≤ measure start := by
  -- Every action counts as progress.
  have paid : actions.countP (fun _ => true) + measure finish ≤ measure start :=
    run_progress_le preserved (fun state action next good stepped =>
      lowered state action next good stepped) holds ran
  rwa [List.countP_true] at paid

/-- An action that has a result is a step that is possible. -/
theorem exists_step {state : State} (action : Action) (able : (machine.step state action).isSome) :
    ∃ action next, machine.step state action = some next := by
  obtain ⟨next, stepped⟩ := Option.isSome_iff_exists.mp able
  exact ⟨action, next, stepped⟩

/-- A machine that can always lower a measure until it is done reaches a state where it is done. -/
theorem reaches_done {good done : State → Prop} (measure : State → Nat)
    (progress : ∀ state, good state → ¬ done state → ∃ action next,
      machine.step state action = some next ∧ good next ∧ measure next < measure state)
    {start : State} (holds : good start) :
    ∃ finish, machine.Reaches start finish ∧ good finish ∧ done finish := by
  -- Strong induction on the measure; a state that is not done yields a strictly smaller one.
  induction size : measure start using Nat.strong_induction_on generalizing start with
  | _ size_ ih =>
    by_cases finished : done start
    · exact ⟨start, .refl start, holds, finished⟩
    · obtain ⟨action, next, stepped, nextGood, smaller⟩ := progress start holds finished
      obtain ⟨finish, reaches, finishGood, finishDone⟩ :=
        ih (measure next) (size ▸ smaller) nextGood rfl
      exact ⟨finish, (Reaches.single stepped).trans reaches, finishGood, finishDone⟩

end Machine

end SysProg
