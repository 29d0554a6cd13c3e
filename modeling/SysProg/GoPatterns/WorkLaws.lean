import SysProg.Lib.Tally
import SysProg.GoPatterns.Work

/-! Each task is executed once, and the pool shuts down when all of them have been. -/

namespace SysProg.GoPatterns.Work

variable {Worker : Type*} {maxGoroutines runners : Nat} {duration : Worker → Nat}
  {plan : Fin runners → List Worker}

/-- What counts as being in the pool. -/
def GoroutinePc.unreturned : GoroutinePc Worker → Nat
  | .returned => 0
  | _ => 1

/-- How many tasks a goroutine is executing. -/
def GoroutinePc.running : GoroutinePc Worker → Nat
  | .task _ _ => 1
  | _ => 0

/-- How often a goroutine is executing the task of a worker. -/
def GoroutinePc.runningOf [DecidableEq Worker] (worker : Worker) : GoroutinePc Worker → Nat
  | .task w _ => if w = worker then 1 else 0
  | _ => 0

/-- How many steps a goroutine has to go, apart from the tasks that it has yet to receive. -/
def GoroutinePc.toGo : GoroutinePc Worker → Nat
  | .notLaunched | .range => 2
  | .task _ steps => steps + 3
  | .done => 1
  | .returned => 0

/-- A goroutine that receives has to leave the loop and the pool. -/
theorem GoroutinePc.toGo_receives {pc : GoroutinePc Worker} (receives : pc.receives = true) :
    pc.toGo = 2 := by
  cases pc with
  | range => rfl
  | notLaunched | task | done | returned => exact nomatch receives

/-- How many steps it takes to submit a worker and to execute its task. -/
def toSubmit (duration : Worker → Nat) (workers : List Worker) : Nat :=
  (workers.map fun w => duration w + 2).sum

/-- How many steps the goroutine has to go that makes the pool and shuts it down. -/
def MainPc.toGo (maxGoroutines : Nat) : MainPc → Nat
  | .add => maxGoroutines + 4
  | .launch i => maxGoroutines - i + 3
  | .started => 2
  | .wait => 1
  | .shutDown => 0

/-- How many steps there are to go. -/
def State.toGo (duration : Worker → Nat) (state : State Worker maxGoroutines runners) : Nat :=
  state.main.toGo maxGoroutines + tally GoroutinePc.toGo state.goroutines +
    tally (toSubmit duration) state.runs

/-- The goroutine of this number is not launched yet. -/
def MainPc.Before (i : Nat) : MainPc → Prop
  | .add => True
  | .launch j => j ≤ i
  | _ => False

/-- The channel is closed. -/
def MainPc.Closed : MainPc → Prop
  | .wait | .shutDown => True
  | _ => False

variable [DecidableEq Worker] {state next : State Worker maxGoroutines runners}

/-- What holds at all times. -/
structure Invariant (plan : Fin runners → List Worker)
    (state : State Worker maxGoroutines runners) : Prop where
  -- The loop launches the goroutines in the order of their numbers.
  launched : ∀ i, state.goroutines i = .notLaunched ↔ state.main.Before i.val
  bound : ∀ i, state.main = .launch i → i ≤ maxGoroutines
  -- `Add` counts all of them before the first one is launched.
  counter : state.wg =
    if state.main = .add then 0 else tally GoroutinePc.unreturned state.goroutines
  closed : state.closed = true ↔ state.main.Closed
  /-- Nobody leaves the loop while the channel is open. -/
  inLoop : state.closed = false → ∀ i, state.goroutines i ≠ .done ∧ state.goroutines i ≠ .returned
  /-- Whoever submits has done so when the channel is closed. -/
  silent : state.closed = true → ∀ runner, state.runs runner = []
  -- `Wait` returns when nobody is counted.
  left : state.main = .shutDown → ∀ i, state.goroutines i = .returned
  -- A task that has been submitted is finished or running.
  once : ∀ w, state.submitted.count w =
    state.finished.count w + tally (GoroutinePc.runningOf w) state.goroutines
  planned : ∀ w, state.submitted.count w + tally (List.count w) state.runs =
    tally (List.count w) plan

/-- Nothing has happened at the start. -/
theorem invariant_initial : Invariant plan (initial maxGoroutines plan) where
  launched := fun _ => ⟨fun _ => trivial, fun _ => rfl⟩
  bound := nofun
  counter := rfl
  closed := ⟨nofun, False.elim⟩
  inLoop := fun _ _ => ⟨nofun, nofun⟩
  silent := nofun
  left := nofun
  -- No worker runs, and nothing was submitted.
  once := by
    intro w
    have idle : tally (GoroutinePc.runningOf w) (initial maxGoroutines plan).goroutines = 0 :=
      tally_eq_zero_iff.mpr fun _ => rfl
    rw [idle]
    rfl
  planned := fun w => Nat.zero_add _

/-- A goroutine that goes on keeps the invariant, if it takes along what is counted about it. -/
theorem Invariant.goroutineAt (invariant : Invariant plan state) {i : Fin maxGoroutines}
    {pc : GoroutinePc Worker} {runs : Fin runners → List Worker} {wg : Nat}
    {submitted finished : List Worker} (launched : state.goroutines i ≠ .notLaunched)
    (unreturned : state.goroutines i ≠ .returned) (onward : pc ≠ .notLaunched)
    (counter : wg + (state.goroutines i).unreturned = state.wg + pc.unreturned)
    (inLoop : state.closed = false → pc ≠ .done ∧ pc ≠ .returned)
    (silent : state.closed = true → ∀ runner, runs runner = [])
    (once : ∀ w, submitted.count w + state.finished.count w + (state.goroutines i).runningOf w =
      state.submitted.count w + finished.count w + pc.runningOf w)
    (planned : ∀ w, submitted.count w + tally (List.count w) runs =
      state.submitted.count w + tally (List.count w) state.runs) :
    Invariant plan { state.goroutineAt i pc with runs, wg, submitted, finished } where
  launched := by
    intro other
    by_cases same : other = i
    · subst same
      simp only [State.goroutineAt, Function.update_self]
      exact ⟨fun fresh => absurd fresh onward,
        fun before => absurd ((invariant.launched other).mpr before) launched⟩
    · simp only [State.goroutineAt, Function.update_of_ne same]
      exact invariant.launched other
  bound := invariant.bound
  counter := by
    -- Nobody has been launched before `Add`.
    have adding : state.main ≠ .add := by
      intro at_
      exact launched ((invariant.launched i).mpr (by rw [at_]; trivial))
    have before := invariant.counter
    have moved := tally_update GoroutinePc.unreturned state.goroutines i pc
    rw [if_neg adding] at before
    show wg = if state.main = .add then 0 else
      tally GoroutinePc.unreturned (Function.update state.goroutines i pc)
    rw [if_neg adding]
    omega
  closed := invariant.closed
  inLoop := by
    intro opened other
    by_cases same : other = i
    · subst same
      simp only [State.goroutineAt, Function.update_self]
      exact inLoop opened
    · simp only [State.goroutineAt, Function.update_of_ne same]
      exact invariant.inLoop opened other
  silent := silent
  left := fun down => absurd (invariant.left down i) unreturned
  once := by
    intro w
    have before := invariant.once w
    have change := once w
    have moved := tally_update (GoroutinePc.runningOf w) state.goroutines i pc
    simp only [State.goroutineAt]
    omega
  planned := by
    intro w
    have before := invariant.planned w
    have change := planned w
    show submitted.count w + tally (List.count w) runs = tally (List.count w) plan
    omega

/-- A step of a goroutine of the pool keeps the invariant. -/
theorem Invariant.goroutineStep (invariant : Invariant plan state) {i : Fin maxGoroutines}
    (stepped : Work.goroutineStep state i = some next) : Invariant plan next := by
  unfold Work.goroutineStep at stepped
  split at stepped
  next at_ =>
    -- It leaves the loop, which it does only because the channel is closed.
    split at stepped
    next closed =>
      obtain rfl := Option.some.inj stepped
      refine invariant.goroutineAt (by rw [at_]; exact nofun) (by rw [at_]; exact nofun) nofun
        (by rw [at_]; rfl) (fun opened => ?_) invariant.silent (fun w => ?_) fun _ => rfl
      · rw [closed] at opened
        exact nomatch opened
      · rw [at_]
        rfl
    · exact nomatch stepped
  next w at_ =>
    -- The task returns.
    obtain rfl := Option.some.inj stepped
    refine invariant.goroutineAt (by rw [at_]; exact nofun) (by rw [at_]; exact nofun) nofun
      (by rw [at_]; rfl) (fun _ => ⟨nofun, nofun⟩) invariant.silent (fun other => ?_) fun _ => rfl
    rw [at_, List.count_append, List.count_singleton]
    simp only [State.goroutineAt, GoroutinePc.runningOf, beq_iff_eq]
    omega
  -- The task goes on.
  next w steps at_ =>
    obtain rfl := Option.some.inj stepped
    refine invariant.goroutineAt (by rw [at_]; exact nofun) (by rw [at_]; exact nofun) nofun
      (by rw [at_]; rfl) (fun _ => ⟨nofun, nofun⟩) invariant.silent (fun other => ?_) fun _ => rfl
    rw [at_]
    rfl
  -- `Done` takes the goroutine off the counter, which is positive because it counted.
  next at_ =>
    split at stepped
    next positive =>
      obtain rfl := Option.some.inj stepped
      refine invariant.goroutineAt (by rw [at_]; exact nofun) (by rw [at_]; exact nofun) nofun
        ?_ (fun opened => ?_) invariant.silent (fun w => ?_) fun _ => rfl
      · rw [at_]
        simp only [GoroutinePc.unreturned]
        omega
      · exact absurd at_ (invariant.inLoop opened i).1
      · rw [at_]
        rfl
    · exact nomatch stepped
  · exact nomatch stepped
  · exact nomatch stepped

/-- A worker that is handed over keeps the invariant. -/
theorem Invariant.handOff (invariant : Invariant plan state) {runner : Fin runners}
    {i : Fin maxGoroutines} (stepped : Work.handOff duration state runner i = some next) :
    Invariant plan next := by
  unfold Work.handOff at stepped
  split at stepped
  · exact nomatch stepped
  next w rest here =>
    split at stepped
    next ready =>
      obtain ⟨_, opened, receives⟩ := ready
      obtain rfl := Option.some.inj stepped
      -- Only a goroutine in the loop receives, and it is in the loop.
      have at_ : state.goroutines i = .range := by
        cases pc : state.goroutines i with
        | range => rfl
        | notLaunched | task | done | returned =>
          rw [pc] at receives
          exact nomatch receives
      refine invariant.goroutineAt (by rw [at_]; exact nofun) (by rw [at_]; exact nofun) nofun
        (by rw [at_]; rfl) (fun _ => ⟨nofun, nofun⟩) (fun closed => ?_) (fun other => ?_)
        fun other => ?_
      · rw [opened] at closed
        exact nomatch closed
      · -- It is being executed from now on.
        rw [at_, List.count_append, List.count_singleton]
        simp only [State.goroutineAt, GoroutinePc.runningOf, beq_iff_eq]
        omega
      · -- It is not to be submitted any more.
        have moved := tally_update (List.count other) state.runs runner rest
        rw [here, List.count_cons] at moved
        rw [List.count_append, List.count_singleton]
        omega
    · exact nomatch stepped

/-- Launching a goroutine keeps the invariant. -/
theorem Invariant.launch (invariant : Invariant plan state) {j : Nat}
    (at_ : state.main = .launch j) (there : j < maxGoroutines) :
    Invariant plan { state.goroutineAt ⟨j, there⟩ .range with main := .launch (j + 1) } := by
  have launched := invariant.launched
  have counter := invariant.counter
  have closed := invariant.closed
  rw [at_] at launched counter closed
  rw [if_neg nofun] at counter
  -- One more goroutine gets into its loop, where it weighs what it weighed.
  have fresh : state.goroutines ⟨j, there⟩ = .notLaunched := (launched ⟨j, there⟩).mpr le_rfl
  exact { invariant with
    launched := by
      intro other
      by_cases same : other = ⟨j, there⟩
      · subst same
        simp only [State.goroutineAt, Function.update_self]
        exact ⟨nofun, fun before => absurd before (Nat.not_succ_le_self j)⟩
      · simp only [State.goroutineAt, Function.update_of_ne same]
        have different : other.val ≠ j := fun equal => same (Fin.ext equal)
        rw [launched other]
        exact ⟨fun before => Nat.lt_of_le_of_ne before different.symm,
          fun before => Nat.le_of_succ_le before⟩
    bound := by
      intro i same
      obtain rfl := MainPc.launch.inj same
      exact there
    counter := by
      have moved := tally_update GoroutinePc.unreturned state.goroutines ⟨j, there⟩ .range
      rw [fresh] at moved
      have same : (GoroutinePc.notLaunched : GoroutinePc Worker).unreturned =
        (GoroutinePc.range : GoroutinePc Worker).unreturned := rfl
      simp only [State.goroutineAt, reduceCtorEq, if_false]
      omega
    closed := closed
    inLoop := by
      intro opened_ other
      by_cases same : other = ⟨j, there⟩
      · subst same
        simp only [State.goroutineAt, Function.update_self]
        exact ⟨nofun, nofun⟩
      · simp only [State.goroutineAt, Function.update_of_ne same]
        exact invariant.inLoop opened_ other
    left := nofun
    once := by
      intro w
      have moved := tally_update (GoroutinePc.runningOf w) state.goroutines ⟨j, there⟩ .range
      rw [fresh] at moved
      have same : (GoroutinePc.notLaunched : GoroutinePc Worker).runningOf w =
        (GoroutinePc.range : GoroutinePc Worker).runningOf w := rfl
      have before := invariant.once w
      simp only [State.goroutineAt]
      omega }

/-- A step of the goroutine that makes the pool and shuts it down keeps the invariant. -/
theorem Invariant.mainStep (invariant : Invariant plan state)
    (stepped : Work.mainStep state = some next) : Invariant plan next := by
  have launched := invariant.launched
  have counter := invariant.counter
  have closed := invariant.closed
  unfold Work.mainStep at stepped
  cases at_ : state.main with
  | add =>
    rw [at_] at launched counter closed
    rw [if_pos rfl] at counter
    simp only [at_] at stepped
    obtain rfl := Option.some.inj stepped
    exact { invariant with
      launched := fun i => ⟨fun _ => Nat.zero_le i.val, fun _ => (launched i).mpr trivial⟩
      bound := by
        intro i same
        obtain rfl := MainPc.launch.inj same
        exact Nat.zero_le maxGoroutines
      counter := by
        -- Nobody has been launched, so nobody has returned.
        have all : tally GoroutinePc.unreturned state.goroutines =
            Fintype.card (Fin maxGoroutines) :=
          tally_eq_card fun i => by rw [(launched i).mpr trivial]; rfl
        rw [Fintype.card_fin] at all
        show state.wg + maxGoroutines = tally GoroutinePc.unreturned state.goroutines
        omega
      closed := closed
      left := nofun }
  | launch j =>
    rw [at_] at launched counter closed
    rw [if_neg nofun] at counter
    have bound := invariant.bound j at_
    simp only [at_] at stepped
    split at stepped
    next there =>
      obtain rfl := Option.some.inj stepped
      exact invariant.launch at_ there
    -- All of them have been launched.
    next enough =>
      obtain rfl := Option.some.inj stepped
      exact { invariant with
        launched := by
          intro other
          rw [launched other]
          exact ⟨fun before => absurd (Nat.lt_of_le_of_lt before other.isLt) enough, False.elim⟩
        bound := nofun
        counter := counter
        closed := closed
        left := nofun }
  | started =>
    rw [at_] at launched counter
    simp only [at_] at stepped
    split at stepped
    -- The channel is closed when nobody has anything left to submit.
    next silent =>
      obtain rfl := Option.some.inj stepped
      exact { invariant with
        launched := launched
        bound := nofun
        counter := counter
        closed := ⟨fun _ => trivial, fun _ => rfl⟩
        inLoop := nofun
        silent := fun _ => silent
        left := nofun }
    · exact nomatch stepped
  | wait =>
    rw [at_] at launched counter closed
    rw [if_neg nofun] at counter
    simp only [at_] at stepped
    split at stepped
    next zero =>
      obtain rfl := Option.some.inj stepped
      exact { invariant with
        launched := launched
        bound := nofun
        counter := counter
        closed := closed
        left := by
          -- Nobody is counted, so everybody has returned.
          intro _ i
          have none_ := tally_eq_zero_iff.mp (counter.symm.trans zero) i
          cases pc : state.goroutines i with
          | returned => rfl
          | notLaunched | range | task | done =>
            rw [pc] at none_
            exact nomatch none_ }
    · exact nomatch stepped
  | shutDown => simp only [at_, reduceCtorEq] at stepped

/-- Every step keeps the invariant. -/
theorem Invariant.step (invariant : Invariant plan state) {action : Action maxGoroutines runners}
    (stepped : (work duration maxGoroutines runners).step state action = some next) :
    Invariant plan next := by
  -- One lemma for each kind of step.
  cases action with
  | main => exact invariant.mainStep stepped
  | goroutine i => exact invariant.goroutineStep stepped
  | handOff runner i => exact invariant.handOff stepped

omit [DecidableEq Worker] in
/-- Every step leaves one step less to go. -/
theorem toGo_step (bound : ∀ i, state.main = .launch i → i ≤ maxGoroutines)
    (launched : ∀ i, state.main.Before i.val → state.goroutines i = .notLaunched)
    {action : Action maxGoroutines runners}
    (stepped : (work duration maxGoroutines runners).step state action = some next) :
    next.toGo duration + 1 = state.toGo duration := by
  cases action with
  -- `New` and `Shutdown` go through a fixed number of steps.
  | main =>
    simp only [work, mainStep] at stepped
    cases at_ : state.main with
    | add =>
      simp only [at_] at stepped
      obtain rfl := Option.some.inj stepped
      simp only [State.toGo, at_, MainPc.toGo]
      omega
    | launch j =>
      simp only [at_] at stepped
      split at stepped
      -- A goroutine that is launched has as many steps to go as before.
      next there =>
        obtain rfl := Option.some.inj stepped
        have fresh := launched ⟨j, there⟩ (by rw [at_]; exact le_rfl)
        have moved := tally_update GoroutinePc.toGo state.goroutines ⟨j, there⟩ .range
        rw [fresh] at moved
        simp only [GoroutinePc.toGo] at moved
        simp only [State.toGo, State.goroutineAt, at_, MainPc.toGo]
        omega
      next enough =>
        obtain rfl := Option.some.inj stepped
        have all := bound j at_
        simp only [State.toGo, at_, MainPc.toGo]
        omega
    | started =>
      simp only [at_] at stepped
      split at stepped
      · obtain rfl := Option.some.inj stepped
        simp only [State.toGo, at_, MainPc.toGo]
        omega
      · cases stepped
    | wait =>
      simp only [at_] at stepped
      split at stepped
      · obtain rfl := Option.some.inj stepped
        simp only [State.toGo, at_, MainPc.toGo]
        omega
      · cases stepped
    | shutDown => simp only [at_, reduceCtorEq] at stepped
  | goroutine i =>
    -- One goroutine has one step less to go.
    have less : ∀ pc : GoroutinePc Worker, pc.toGo + 1 = (state.goroutines i).toGo →
        (state.goroutineAt i pc).toGo duration + 1 = state.toGo duration := by
      intro pc onward
      have moved := tally_update GoroutinePc.toGo state.goroutines i pc
      simp only [State.toGo, State.goroutineAt]
      omega
    simp only [work, goroutineStep] at stepped
    split at stepped
    next at_ =>
      split at stepped
      · obtain rfl := Option.some.inj stepped
        exact less .done (by rw [at_]; rfl)
      · cases stepped
    next w at_ =>
      obtain rfl := Option.some.inj stepped
      exact less .range (by rw [at_]; rfl)
    next w steps at_ =>
      obtain rfl := Option.some.inj stepped
      exact less (.task w steps) (by rw [at_]; rfl)
    next at_ =>
      split at stepped
      · obtain rfl := Option.some.inj stepped
        exact less .returned (by rw [at_]; rfl)
      · cases stepped
    · cases stepped
    · cases stepped
  | handOff runner i =>
    simp only [work, handOff] at stepped
    split at stepped
    · cases stepped
    next w rest here =>
      split at stepped
      next ready =>
        obtain ⟨_, _, receives⟩ := ready
        obtain rfl := Option.some.inj stepped
        -- The steps that it takes to submit the worker become steps of the task.
        have taken := tally_update (toSubmit duration) state.runs runner rest
        have moved := tally_update GoroutinePc.toGo state.goroutines i (.task w (duration w))
        have ready := GoroutinePc.toGo_receives receives
        have cost : toSubmit duration (w :: rest) = duration w + 2 + toSubmit duration rest := by
          simp [toSubmit]
        rw [here, cost] at taken
        rw [ready] at moved
        simp only [GoroutinePc.toGo] at moved
        simp only [State.toGo, State.goroutineAt]
        omega
      · cases stepped

omit [DecidableEq Worker] in
/-- A goroutine that is neither launched nor gone can receive or has something to do. -/
theorem goroutine_goesOn {i : Fin maxGoroutines} (launched : state.goroutines i ≠ .notLaunched)
    (unreturned : state.goroutines i ≠ .returned) (counted : 0 < state.wg) :
    (state.goroutines i).receives = true ∧ state.closed = false ∨
      ∃ next, goroutineStep state i = some next := by
  cases at_ : state.goroutines i with
  | notLaunched => exact absurd at_ launched
  | returned => exact absurd at_ unreturned
  -- It waits for a worker, or leaves the loop when the channel is closed.
  | range =>
    cases closed : state.closed with
    | false => exact .inl ⟨rfl, rfl⟩
    | true => exact .inr (Option.isSome_iff_exists.mp (by simp [goroutineStep, at_, closed]))
  -- A task goes on or returns.
  | task w steps =>
    right
    cases steps with
    | zero => exact Option.isSome_iff_exists.mp (by simp [goroutineStep, at_])
    | succ steps => exact Option.isSome_iff_exists.mp (by simp [goroutineStep, at_])
  | done => exact .inr (Option.isSome_iff_exists.mp (by simp [goroutineStep, at_, counted]))

/-- As long as the pool is not shut down, some goroutine can go on. -/
theorem Invariant.alive (invariant : Invariant plan state) (some_ : 0 < maxGoroutines)
    (up : state.main ≠ .shutDown) :
    ∃ action next, (work duration maxGoroutines runners).step state action = some next := by
  have launched := invariant.launched
  have counter := invariant.counter
  have mainSteps : (Work.mainStep state).isSome = true →
      ∃ action next, (work duration maxGoroutines runners).step state action = some next :=
    fun able => Machine.exists_step .main able
  -- Until the pool has been made there is nothing to wait for.
  cases at_ : state.main with
  | add => exact mainSteps (by simp [Work.mainStep, at_])
  | launch j =>
    by_cases there : j < maxGoroutines
    · exact mainSteps (by simp [Work.mainStep, at_, there])
    · exact mainSteps (by simp [Work.mainStep, at_, there])
  | started =>
    rw [at_] at launched counter
    rw [if_neg nofun] at counter
    by_cases silent : ∀ runner, state.runs runner = []
    · exact mainSteps (by simp [Work.mainStep, at_, silent])
    · -- Somebody has a worker to submit, and the first goroutine can take it or is busy.
      obtain ⟨runner, more⟩ := not_forall.mp silent
      have opened : state.closed = false := by
        cases closed : state.closed with
        | false => rfl
        | true => exact absurd (invariant.silent closed runner) more
      have unreturned := (invariant.inLoop opened ⟨0, some_⟩).2
      have present : state.goroutines ⟨0, some_⟩ ≠ .notLaunched := (launched ⟨0, some_⟩).mp
      have weighs : (state.goroutines ⟨0, some_⟩).unreturned = 1 := by
        cases pc : state.goroutines ⟨0, some_⟩ with
        | returned => exact absurd pc unreturned
        | notLaunched | range | task | done => rfl
      have least := le_tally GoroutinePc.unreturned state.goroutines ⟨0, some_⟩
      rcases goroutine_goesOn present unreturned (by omega) with ⟨receives, _⟩ | ⟨next, stepped⟩
      · cases here : state.runs runner with
        | nil => exact absurd here more
        | cons w rest =>
          have able : (Work.handOff duration state runner ⟨0, some_⟩).isSome = true := by
            simp [Work.handOff, here, at_, opened, receives]
          exact Machine.exists_step (.handOff runner ⟨0, some_⟩) able
      · exact ⟨.goroutine ⟨0, some_⟩, next, stepped⟩
  | wait =>
    rw [at_] at launched counter
    rw [if_neg nofun] at counter
    by_cases zero : state.wg = 0
    · exact mainSteps (by simp [Work.mainStep, at_, zero])
    · -- Somebody has not returned, and does not receive because the channel is closed.
      have some_ : 0 < tally GoroutinePc.unreturned state.goroutines := by omega
      obtain ⟨i, weighs⟩ := exists_of_tally_pos some_
      have unreturned : state.goroutines i ≠ .returned := by
        intro pc
        rw [pc] at weighs
        exact nomatch weighs
      rcases goroutine_goesOn (launched i).mp unreturned (by omega) with
        ⟨_, opened⟩ | ⟨next, stepped⟩
      · have closed := invariant.closed.mpr (by rw [at_]; trivial)
        rw [opened] at closed
        exact nomatch closed
      · exact ⟨.goroutine i, next, stepped⟩
  | shutDown => exact absurd at_ up

/-- What is promised of the tasks, of `Run` and of `Shutdown` after so many steps. -/
structure Correct (duration : Worker → Nat) (plan : Fin runners → List Worker)
    (state : State Worker maxGoroutines runners) (steps : Nat) : Prop where
  /-- What has been submitted has been executed once, or is being executed. -/
  once : ∀ w, state.submitted.count w =
    state.finished.count w + tally (GoroutinePc.runningOf w) state.goroutines
  /-- What is to be submitted has been submitted once, or is yet to be. -/
  planned : ∀ w, state.submitted.count w + tally (List.count w) state.runs =
    tally (List.count w) plan
  most : tally GoroutinePc.running state.goroutines ≤ maxGoroutines
  /-- Nobody waits forever, since some step is possible, and there are only so many. -/
  alive : state.main ≠ .shutDown →
    ∃ action next, (work duration maxGoroutines runners).step state action = some next
  bounded : steps ≤ (initial maxGoroutines plan).toGo duration
  /-- When `Shutdown` returns, every task has been executed and every goroutine has left. -/
  complete : state.main = .shutDown → (∀ runner, state.runs runner = []) ∧
    (∀ w, state.finished.count w = tally (List.count w) plan) ∧
      ∀ i, state.goroutines i = .returned

/-- Every task is executed once, and then the pool shuts down. -/
theorem work_correct (duration : Worker → Nat) (some_ : 0 < maxGoroutines)
    (plan : Fin runners → List Worker) (actions : List (Action maxGoroutines runners))
    (state : State Worker maxGoroutines runners)
    (ran : (work duration maxGoroutines runners).run (initial maxGoroutines plan) actions =
      some state) :
    Correct duration plan state actions.length := by
  have preserved : ∀ state action next, Invariant plan state →
      (work duration maxGoroutines runners).step state action = some next → Invariant plan next :=
    fun _ _ _ before stepped => before.step stepped
  have invariant := Machine.run_invariant preserved invariant_initial ran
  -- Each step costs one, so there are no more steps than there are to go at the start.
  have lowered : ∀ state action next, Invariant plan state →
      (work duration maxGoroutines runners).step state action = some next →
        next.toGo duration < state.toGo duration := by
    intro state action next before stepped
    exact (toGo_step before.bound (fun i => (before.launched i).mpr) stepped).le
  have paid : actions.length + state.toGo duration ≤
      (initial maxGoroutines plan).toGo duration :=
    Machine.run_length_le preserved lowered invariant_initial ran
  exact {
    once := invariant.once
    planned := invariant.planned
    most := by
      have each : ∀ i, (state.goroutines i).running ≤ 1 := by
        intro i
        cases state.goroutines i <;> simp [GoroutinePc.running]
      have most := tally_le_card each
      rwa [Fintype.card_fin] at most
    alive := invariant.alive some_
    bounded := by omega
    complete := by
      intro down
      have left := invariant.left down
      have silent := invariant.silent (invariant.closed.mpr (by rw [down]; trivial))
      refine ⟨silent, fun w => ?_, left⟩
      have once := invariant.once w
      have planned := invariant.planned w
      -- Nobody is executing anything, and nothing is left to submit.
      have idle : tally (GoroutinePc.runningOf w) state.goroutines = 0 :=
        tally_eq_zero_iff.mpr fun i => by rw [left i]; rfl
      have nothing : tally (List.count w) state.runs = 0 :=
        tally_eq_zero_iff.mpr fun runner => by rw [silent runner]; rfl
      omega }

/-- Two goroutines execute three tasks, two of which one goroutine submits. -/
def threeTasks : List (Action 2 2) :=
  [.main, .main, .main, .main, .handOff 1 0, .handOff 0 1, .goroutine 0, .goroutine 0,
    .handOff 1 0, .main, .goroutine 1, .goroutine 1, .goroutine 0, .goroutine 1, .goroutine 1,
    .goroutine 0, .goroutine 0, .goroutine 0, .main]

/-- The pool shuts down after the last of the three tasks. -/
theorem work_correct_threeTasks :
    ∃ state, (work (fun _ : Nat => 1) 2 2).run (initial 2 fun i => [[7], [8, 9]][i]) threeTasks =
        some state ∧ (state.main, state.submitted, state.finished) =
          (.shutDown, [8, 7, 9], [8, 7, 9]) ∧
      Correct (fun _ => 1) (fun i : Fin 2 => [[7], [8, 9]][i]) state threeTasks.length := by
  -- Two goroutines run the three tasks of two runners.
  have shown : ((work (fun _ : Nat => 1) 2 2).run
      (initial 2 fun i => [[7], [8, 9]][i]) threeTasks).map
        (fun state => (state.main, state.submitted, state.finished)) =
          some (.shutDown, [8, 7, 9], [8, 7, 9]) := by decide +kernel
  obtain ⟨state, ran, facts⟩ := Option.map_eq_some_iff.mp shown
  exact ⟨state, ran, facts, work_correct _ (by decide) _ threeTasks state ran⟩

end SysProg.GoPatterns.Work
