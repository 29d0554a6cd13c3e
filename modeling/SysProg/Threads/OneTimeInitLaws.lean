import SysProg.Lib.Mutex
import SysProg.Lib.Tally
import SysProg.Threads.OneTimeInit

/-! However many threads call it, the initialization is executed once, before any call returns. -/

namespace SysProg.Threads.OneTimeInit

/-- A thread at this place has locked the mutex. -/
def Pc.Inside : Pc → Prop
  | .outside | .lock => False
  | _ => True

/-- What the flag must be for a thread to be at this place. -/
def Pc.Expects (called : Bool) : Pc → Prop
  | .callInit | .init | .setCalled => called = false
  | .unlock => called = true
  | _ => True

/-- How often `init` has begun and completed, as the owner of the mutex stands. -/
def Pc.executions : Pc → Nat × Nat
  -- In between, the flag does not tell yet.
  | .init => (1, 0)
  | .setCalled => (1, 1)
  | _ => (0, 0)

section Safety

variable {Thread : Type*} {state : State Thread}

/-- How often `init` has begun and completed, by the flag and by the owner of the mutex. -/
def State.executions (state : State Thread) : Nat × Nat :=
  if state.called then (1, 1)
  else match state.mtx with
    | none => (0, 0)
    | some owner => (state.pc owner).executions

/-- What holds at all times. -/
structure Invariant (state : State Thread) : Prop where
  -- The mutex is held from before the test until after the flag is set.
  guards : Guards state.mtx fun thread => (state.pc thread).Inside
  /-- The flag is what the threads have found it to be. -/
  expects : ∀ thread, (state.pc thread).Expects state.called
  executions : (state.begun, state.completed) = state.executions
  returned : ∀ thread, 0 < state.returned thread → state.called = true

/-- Nothing has happened at the start. -/
theorem invariant_initial : Invariant (initial : State Thread) where
  -- No thread has called the function.
  guards := fun _ => ⟨False.elim, nofun⟩
  expects := fun _ => trivial
  executions := rfl
  returned := nofun

/-- Outside, the flag may be anything. -/
theorem Pc.expects_of_not_inside {pc : Pc} (outside : ¬ pc.Inside) (called : Bool) :
    pc.Expects called := by
  cases pc <;> first | trivial | exact absurd trivial outside

/-- The owner of the mutex tells how often `init` has been executed. -/
theorem Invariant.owner (invariant : Invariant state) {thread : Thread}
    (within : (state.pc thread).Inside) :
    state.mtx = some thread ∧ (state.begun, state.completed) =
      if state.called then (1, 1) else (state.pc thread).executions := by
  have held := (invariant.guards thread).mp within
  refine ⟨held, ?_⟩
  rw [invariant.executions, State.executions, held]

/-- Once the flag is set, `init` has been executed once. -/
theorem Invariant.once (invariant : Invariant state) (set : state.called = true) :
    state.begun = 1 ∧ state.completed = 1 := by
  have executions := invariant.executions
  rw [State.executions, if_pos set] at executions
  exact Prod.mk.inj executions

end Safety

variable {Thread : Type*} [DecidableEq Thread] {state next : State Thread}

/-- A thread that moves keeps what every place must have, if its new place has it as well. -/
theorem State.forall_goto {property : Pc → Prop} {thread : Thread} {place : Pc}
    (before : ∀ other, other ≠ thread → property (state.pc other)) (here : property place) :
    ∀ other, property ((state.goto thread place).pc other) :=
  (Function.forall_update_iff state.pc fun _ => property).mpr ⟨here, before⟩

/-- Every step keeps the invariant. -/
theorem Invariant.step {action : Action Thread} (invariant : Invariant state)
    (stepped : OneTimeInit.step state action = some next) : Invariant next := by
  have owner := @Invariant.owner _ _ invariant
  obtain ⟨guards, expects, executions, returned⟩ := invariant
  cases action with
  | call thread =>
    simp only [OneTimeInit.step] at stepped
    split at stepped
    next outside =>
      obtain rfl := Option.some.inj stepped
      refine ⟨guards.keep_update (by rw [outside]; rfl),
        State.forall_goto (fun other _ => expects other) trivial, ?_, returned⟩
      -- The call comes from outside, so it is not that of the owner.
      cases held : state.mtx with
      | none => simpa [State.executions, State.goto, held] using executions
      | some other =>
        have different : other ≠ thread := by
          rintro rfl
          have within : (state.pc other).Inside := (guards other).mpr held
          rw [outside] at within
          exact within
        simpa [State.executions, State.goto, held, Function.update_of_ne different] using executions
    · exact nomatch stepped
  | goesOn thread =>
    have expected := expects thread
    have mine := @owner thread
    simp only [OneTimeInit.step] at stepped
    cases at_ : state.pc thread with
    | outside =>
      simp only [at_, reduceCtorEq] at stepped
    | lock =>
      simp only [at_] at stepped
      split at stepped
      -- With the mutex free, nobody is in the middle of anything.
      next free =>
        obtain rfl := Option.some.inj stepped
        rw [free] at guards
        refine ⟨guards.lock_update trivial,
          State.forall_goto (fun other _ => expects other) trivial, ?_, returned⟩
        simpa [State.executions, State.goto, free, Pc.executions] using executions
      · exact nomatch stepped
    | test =>
      obtain ⟨held, counts⟩ := mine (by rw [at_]; trivial)
      simp only [at_] at stepped
      obtain rfl := Option.some.inj stepped
      -- The thread goes where the flag sends it, and stays inside.
      cases flag : state.called with
      | true =>
        refine ⟨guards.keep_update (by rw [at_]; exact ⟨id, id⟩),
          State.forall_goto (fun other _ => expects other) flag, ?_, returned⟩
        simpa [State.executions, State.goto, held, flag] using counts
      | false =>
        refine ⟨guards.keep_update (by rw [at_]; exact ⟨id, id⟩),
          State.forall_goto (fun other _ => expects other) flag, ?_, returned⟩
        simpa [State.executions, State.goto, held, flag, at_, Pc.executions] using counts
    | callInit =>
      -- The execution of `init` begins.
      obtain ⟨held, counts⟩ := mine (by rw [at_]; trivial)
      rw [at_] at expected
      simp only [at_] at stepped
      obtain rfl := Option.some.inj stepped
      refine ⟨guards.keep_update (by rw [at_]; exact ⟨id, id⟩),
        State.forall_goto (fun other _ => expects other) expected, ?_, returned⟩
      have flag : state.called = false := expected
      simpa [State.executions, State.goto, held, flag, at_, Pc.executions] using counts
    | init =>
      -- It completes.
      obtain ⟨held, counts⟩ := mine (by rw [at_]; trivial)
      rw [at_] at expected
      simp only [at_] at stepped
      obtain rfl := Option.some.inj stepped
      refine ⟨guards.keep_update (by rw [at_]; exact ⟨id, id⟩),
        State.forall_goto (fun other _ => expects other) expected, ?_, returned⟩
      have flag : state.called = false := expected
      simpa [State.executions, State.goto, held, flag, at_, Pc.executions] using counts
    | setCalled =>
      obtain ⟨held, counts⟩ := mine (by rw [at_]; trivial)
      rw [at_] at expected
      simp only [at_] at stepped
      obtain rfl := Option.some.inj stepped
      -- The flag changes, but all others are outside, where it does not matter.
      have others : ∀ other, other ≠ thread → (state.pc other).Expects true := by
        intro other different
        apply Pc.expects_of_not_inside
        intro too
        exact different (guards.exclusive too (by rw [at_]; trivial))
      refine ⟨guards.keep_update (by rw [at_]; exact ⟨id, id⟩),
        State.forall_goto others rfl, ?_, fun _ _ => rfl⟩
      have flag : state.called = false := expected
      simpa [State.executions, State.goto, flag, at_, Pc.executions] using counts
    | unlock =>
      rw [at_] at expected
      simp only [at_] at stepped
      obtain rfl := Option.some.inj stepped
      -- The call returns, and the flag stays set for good.
      have flag : state.called = true := expected
      refine ⟨guards.unlock_update (by rw [at_]; trivial) id,
        State.forall_goto (fun other _ => expects other) trivial, ?_, fun _ _ => flag⟩
      simpa [State.executions, State.goto, flag] using executions

/-- What is promised of `init` and of the calls. -/
structure Once (state : State Thread) : Prop where
  /-- The execution of `init` does not begin twice. -/
  once : state.begun ≤ 1
  /-- No two threads execute `init` at the same time. -/
  alone : ∀ one two, state.pc one = .init → state.pc two = .init → one = two
  /-- No call returns before `init` has been executed once. -/
  completed : ∀ thread, 0 < state.returned thread → state.begun = 1 ∧ state.completed = 1

omit [DecidableEq Thread] in
/-- The invariant keeps the promise. -/
theorem Invariant.promised (invariant : Invariant state) : Once state where
  once := by
    have executions := congrArg Prod.fst invariant.executions
    dsimp only [State.executions] at executions
    rw [executions]
    -- Neither the flag nor any place of the owner stands for more than one execution.
    split
    · exact le_refl 1
    · split
      · exact Nat.zero_le 1
      next owner _ => cases state.pc owner <;> decide
  alone := by
    intro one two first second
    apply invariant.guards.exclusive
    · rw [first]; trivial
    · rw [second]; trivial
  -- The flag is set by the time that a call returns.
  completed := fun thread returned => invariant.once (invariant.returned thread returned)

/-- How many steps a thread can make before `init` has been executed. -/
def Pc.rank : Pc → Nat
  | .outside => 5
  | .lock => 4
  | .test => 3
  | .callInit => 2
  | .init => 1
  | .setCalled | .unlock => 0

section Progress

variable [Fintype Thread]

/-- A thread that moves to a place of lower rank lowers the rank of all. -/
theorem State.closer_goto {thread : Thread} {place : Pc}
    (lower : place.rank + 1 ≤ (state.pc thread).rank) :
    tally Pc.rank (state.goto thread place).pc + 1 ≤ tally Pc.rank state.pc := by
  have moved := tally_update Pc.rank state.pc thread place
  simp only [State.goto]
  omega

/-- Until `init` has been executed, every step takes some thread closer to that. -/
theorem Invariant.closer {action : Action Thread} (invariant : Invariant state)
    (stepped : OneTimeInit.step state action = some next) (unfinished : next.completed = 0) :
    state.completed = 0 ∧ tally Pc.rank next.pc + 1 ≤ tally Pc.rank state.pc := by
  cases action with
  | call thread =>
    simp only [OneTimeInit.step] at stepped
    split at stepped
    next outside =>
      obtain rfl := Option.some.inj stepped
      exact ⟨unfinished, State.closer_goto (by rw [outside]; decide)⟩
    · exact nomatch stepped
  | goesOn thread =>
    have expected := invariant.expects thread
    simp only [OneTimeInit.step] at stepped
    cases at_ : state.pc thread with
    | outside => simp only [at_, reduceCtorEq] at stepped
    -- The mutex may be taken, and then this is not a step.
    | lock =>
      simp only [at_] at stepped
      split at stepped
      · obtain rfl := Option.some.inj stepped
        exact ⟨unfinished, State.closer_goto (by rw [at_]; decide)⟩
      · exact nomatch stepped
    | test =>
      simp only [at_] at stepped
      obtain rfl := Option.some.inj stepped
      refine ⟨unfinished, State.closer_goto ?_⟩
      rw [at_]
      -- Wherever the flag sends the thread, its rank is lower.
      split <;> decide
    | callInit =>
      simp only [at_] at stepped
      obtain rfl := Option.some.inj stepped
      exact ⟨unfinished, State.closer_goto (by rw [at_]; decide)⟩
    | init =>
      -- This step completes the execution.
      simp only [at_] at stepped
      obtain rfl := Option.some.inj stepped
      exact absurd unfinished (Nat.succ_ne_zero _)
    -- `init` has been executed before.
    | setCalled =>
      have within : (state.pc thread).Inside := by rw [at_]; trivial
      obtain ⟨-, counts⟩ := invariant.owner within
      rw [at_] at expected counts
      have flag : state.called = false := expected
      rw [flag] at counts
      have completed : state.completed = 1 := congrArg Prod.snd counts
      simp only [at_] at stepped
      obtain rfl := Option.some.inj stepped
      exact absurd (completed.symm.trans unfinished) one_ne_zero
    | unlock =>
      rw [at_] at expected
      have completed := (invariant.once expected).2
      simp only [at_] at stepped
      obtain rfl := Option.some.inj stepped
      exact absurd (completed.symm.trans unfinished) one_ne_zero

omit [Fintype Thread] in
/-- A call that has been made can go on, or it waits for one that can. -/
theorem Invariant.enabled (invariant : Invariant state)
    (made : ∃ thread, state.pc thread ≠ .outside) :
    ∃ thread next, OneTimeInit.step state (.goesOn thread) = some next := by
  cases held : state.mtx with
  | none =>
    -- Nobody is inside, so the call is about to lock the mutex.
    obtain ⟨thread, made⟩ := made
    have outside : ¬ (state.pc thread).Inside := by
      intro within
      have mine := (invariant.guards thread).mp within
      exact nomatch held.symm.trans mine
    cases at_ : state.pc thread with
    | lock => exact ⟨thread, _, by simp only [OneTimeInit.step, at_, held]; rfl⟩
    | outside => exact absurd at_ made
    | test | callInit | init | setCalled | unlock =>
      rw [at_] at outside
      exact absurd trivial outside
  | some owner =>
    -- The owner never waits.
    have within : (state.pc owner).Inside := (invariant.guards owner).mpr held
    cases at_ : state.pc owner with
    | outside | lock =>
      rw [at_] at within
      exact within.elim
    | test | callInit | init | setCalled | unlock =>
      exact ⟨owner, _, by simp only [OneTimeInit.step, at_]; rfl⟩

/-- What holds of every run, with the number of its steps. -/
theorem invariant_of_run {actions : List (Action Thread)}
    (ran : (oneTimeInit Thread).run initial actions = some state) :
    Invariant state ∧ (state.completed = 0 →
      actions.length + tally Pc.rank state.pc ≤ 5 * Fintype.card Thread) := by
  -- Every step adds one to the length, and takes at least one from the rank.
  let good (past : List (Action Thread)) (state : State Thread) : Prop :=
    Invariant state ∧ (state.completed = 0 →
      past.length + tally Pc.rank state.pc ≤ 5 * Fintype.card Thread)
  have preserved : ∀ past state action next, (oneTimeInit Thread).run initial past = some state →
      good past state → (oneTimeInit Thread).step state action = some next →
        good (past ++ [action]) next := by
    rintro past state action next - ⟨invariant, bounded⟩ stepped
    refine ⟨invariant.step stepped, fun unfinished => ?_⟩
    obtain ⟨before, closer⟩ := invariant.closer stepped unfinished
    have room := bounded before
    rw [List.length_append, List.length_singleton]
    omega
  have start : good [] initial := by
    refine ⟨invariant_initial, fun _ => ?_⟩
    simp [tally, initial, Pc.rank, mul_comm]
  exact Machine.run_history preserved start ran

/--
The initialization is executed once, alone, and before any call returns.

Once a call has been made it cannot be put off: some call can always go on,
and only so many steps can be made before the initialization has been executed.
-/
theorem oneTimeInit_once (actions : List (Action Thread)) (state : State Thread)
    (ran : (oneTimeInit Thread).run initial actions = some state) :
    Once state ∧
      (state.completed = 0 → actions.length ≤ 5 * Fintype.card Thread) ∧
      ((∃ thread, state.pc thread ≠ .outside) →
        ∃ thread next, (oneTimeInit Thread).step state (.goesOn thread) = some next) := by
  -- The invariant of the run bounds its steps as long as no call has returned.
  obtain ⟨invariant, bounded⟩ := invariant_of_run ran
  refine ⟨invariant.promised, fun unfinished => ?_, invariant.enabled⟩
  have room := bounded unfinished
  omega

end Progress

/-- Two threads, one of which calls the function twice. -/
def twoThreads : List (Action (Fin 2)) :=
  [.call 0, .call 1, .goesOn 0, .goesOn 0, .goesOn 0, .goesOn 0, .goesOn 0, .goesOn 0,
    .goesOn 1, .call 0, .goesOn 1, .goesOn 1, .goesOn 0, .goesOn 0, .goesOn 0]

/-- The second call of a thread does not initialize again. -/
theorem oneTimeInit_once_twoThreads :
    ∃ state, (oneTimeInit (Fin 2)).run initial twoThreads = some state ∧
      (state.returned 0, state.returned 1, state.begun) = (2, 1, 1) ∧ Once state := by
  -- Thread 0 calls twice and thread 1 once, and the initialisation is done once.
  obtain ⟨state, ran, counts⟩ : ∃ state, (oneTimeInit (Fin 2)).run initial twoThreads = some state ∧
      (state.returned 0, state.returned 1, state.begun) = (2, 1, 1) :=
    Option.map_eq_some_iff.mp (by decide)
  exact ⟨state, ran, counts, (oneTimeInit_once twoThreads state ran).1⟩

end SysProg.Threads.OneTimeInit
