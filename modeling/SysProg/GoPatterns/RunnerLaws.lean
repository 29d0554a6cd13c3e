import SysProg.GoPatterns.Runner

/-! What the results of a runner mean, and when it leaves its goroutine behind. -/

namespace SysProg.GoPatterns.Runner

variable {Task : Type*} {duration : Task → Nat → Option Nat} {tasks : List Task}
  {state next : State Task}

/-- So many tasks have been called, and all of them have returned. -/
def State.Done (tasks : List Task) (state : State Task) (count : Nat) : Prop :=
  state.started = tasks.zipIdx.take count ∧ state.completed = tasks.zipIdx.take count

/-- What must have happened for `run` to return this. -/
def State.Result (tasks : List Task) (state : State Task) : Option RunnerError → Prop
  | none => state.Done tasks tasks.length
  | some .interrupt => state.interrupted = true ∧ ∃ count < tasks.length, state.Done tasks count
  | some .timeout => False

/-- What is known of the tasks where the goroutine stands. -/
def GoroutinePc.Fits (tasks : List Task) (state : State Task) : GoroutinePc Task → Prop
  | .notLaunched => state.Done tasks 0
  | .range id => id ≤ tasks.length ∧ state.Done tasks id
  | .gotInterrupt id next => tasks[id]? = some next ∧ state.Done tasks id
  | .stop => state.Result tasks (some .interrupt)
  -- The task has been called, and all tasks before it have returned.
  | .task id called _ => tasks[id]? = some called ∧
      state.started = tasks.zipIdx.take (id + 1) ∧ state.completed = tasks.zipIdx.take id
  | .send err => state.Result tasks err
  | .ended => ∃ err, state.start = .returned err ∧ state.Result tasks err

/-- The goroutine has been launched and has not ended. -/
def GoroutinePc.Running : GoroutinePc Task → Prop
  | .notLaunched | .ended => False
  | _ => True

/-- What is known of the goroutine where `Start` stands. -/
def StartPc.Fits (state : State Task) : StartPc → Prop
  | .notify | .launch => state.goroutine = .notLaunched ∧ state.timeout ≠ .received
  | .select => state.goroutine.Running ∧ state.timeout ≠ .received
  -- `Start` has received from one channel or from the other.
  | .returned err => state.goroutine = .ended ∧ state.timeout ≠ .received ∨
      err = some .timeout ∧ state.goroutine.Running ∧ state.timeout = .received

/-- What holds at all times. -/
structure Invariant (tasks : List Task) (state : State Task) : Prop where
  goroutine : state.goroutine.Fits tasks state
  start : state.start.Fits state

/-- Nothing has happened at the start. -/
theorem invariant_initial : Invariant tasks initial where
  goroutine := ⟨rfl, rfl⟩
  start := ⟨rfl, nofun⟩

/-- One more task is behind those that have been taken. -/
theorem take_succ_zipIdx {id : Nat} {task : Task} (there : tasks[id]? = some task) :
    tasks.zipIdx.take (id + 1) = tasks.zipIdx.take id ++ [(task, id)] := by
  have entry : tasks.zipIdx[id]? = some (task, id) := by simp [List.getElem?_zipIdx, there]
  rw [List.take_add_one, entry]
  rfl

/-- What is known of the tasks depends on the tasks, on signals and on what `Start` returned. -/
theorem GoroutinePc.Fits.frame {pc : GoroutinePc Task} (fits : pc.Fits tasks state)
    (started : next.started = state.started) (completed : next.completed = state.completed)
    (interrupted : next.interrupted = state.interrupted)
    (returned : ∀ err, state.start = .returned err → next.start = .returned err) :
    pc.Fits tasks next := by
  -- What is said of the goroutine speaks of the lists of tasks and of the interrupt only.
  have done : ∀ count, state.Done tasks count → next.Done tasks count := by
    intro count before
    rw [State.Done, started, completed]
    exact before
  -- The result that is sent is kept, too.
  have result : ∀ err, state.Result tasks err → next.Result tasks err := by
    intro err before
    cases err with
    | none => exact done tasks.length before
    | some error =>
      cases error with
      | timeout => exact before
      | interrupt =>
        obtain ⟨signal, count, proper, there⟩ := before
        exact ⟨interrupted.trans signal, count, proper, done count there⟩
  -- One case for each place of the goroutine.
  cases pc with
  | notLaunched => exact done 0 fits
  | range id | gotInterrupt id task => exact ⟨fits.1, done id fits.2⟩
  | stop => exact result (some .interrupt) fits
  | task id task steps => exact ⟨fits.1, started.trans fits.2.1, completed.trans fits.2.2⟩
  | send err => exact result err fits
  | ended =>
    obtain ⟨err, there, before⟩ := fits
    exact ⟨err, returned err there, result err before⟩

/-- A step of `Start` keeps the invariant. -/
theorem Invariant.startStep (invariant : Invariant tasks state)
    (stepped : Runner.startStep state = some next) : Invariant tasks next := by
  have start := invariant.start
  unfold Runner.startStep at stepped
  split at stepped
  next at_ =>
    rw [at_] at start
    obtain rfl := Option.some.inj stepped
    refine ⟨?_, start⟩
    exact invariant.goroutine.frame rfl rfl rfl fun err same => nomatch at_.symm.trans same
  next at_ =>
    -- The goroutine begins with the first task.
    rw [at_] at start
    have fits := invariant.goroutine
    rw [start.1] at fits
    obtain rfl := Option.some.inj stepped
    exact ⟨⟨Nat.zero_le _, fits⟩, trivial, start.2⟩
  · exact nomatch stepped
  · exact nomatch stepped

/-- A goroutine that goes on leaves `Start` where it is. -/
theorem StartPc.Fits.goesOn {pc : StartPc} (fits : pc.Fits state)
    (running : state.goroutine.Running) (onward : next.goroutine.Running)
    (timeout : next.timeout = state.timeout) : pc.Fits next := by
  -- Start has not launched a goroutine, or waits for it, or has returned with a timeout.
  cases pc with
  | notify | launch =>
    rw [fits.1] at running
    exact running.elim
  | select => exact ⟨onward, fun received => fits.2 (timeout.symm.trans received)⟩
  | returned err =>
    rcases fits with ⟨ended, _⟩ | ⟨late, _, received⟩
    · rw [ended] at running
      exact running.elim
    · exact .inr ⟨late, onward, timeout.trans received⟩

/-- A goroutine that steps by itself has been launched, and does not wait for a receiver. -/
theorem goroutineStep_running (stepped : goroutineStep duration tasks state = some next) :
    state.goroutine.Running ∧ ∀ err, state.goroutine ≠ .send err := by
  cases at_ : state.goroutine with
  | notLaunched | send | ended => simp [goroutineStep, at_] at stepped
  | range | gotInterrupt | stop | task => exact ⟨trivial, nofun⟩

/-- A step of the goroutine keeps the invariant. -/
theorem Invariant.goroutineStep (invariant : Invariant tasks state)
    (stepped : Runner.goroutineStep duration tasks state = some next) : Invariant tasks next := by
  have fits := invariant.goroutine
  have start := invariant.start
  have running := (goroutineStep_running stepped).1
  unfold Runner.goroutineStep at stepped
  cases at_ : state.goroutine with
  | notLaunched | send err | ended => simp only [at_, reduceCtorEq] at stepped
  | range id =>
    rw [at_] at fits
    obtain ⟨within, done⟩ := fits
    simp only [at_] at stepped
    cases there : tasks[id]? with
    | some task =>
      simp only [there] at stepped
      obtain rfl := Option.some.inj stepped
      exact ⟨⟨there, done⟩, start.goesOn running trivial rfl⟩
    | none =>
      -- The loop has come to its end, so all tasks have returned.
      simp only [there] at stepped
      obtain rfl := Option.some.inj stepped
      have all : id = tasks.length := le_antisymm within (List.getElem?_eq_none_iff.mp there)
      rw [all] at done
      exact ⟨done, start.goesOn running trivial rfl⟩
  | gotInterrupt id task =>
    rw [at_] at fits
    obtain ⟨there, done⟩ := fits
    simp only [at_] at stepped
    split at stepped
    · -- A signal has come before this task was called.
      obtain rfl := Option.some.inj stepped
      have proper := (List.getElem?_eq_some_iff.mp there).1
      exact ⟨⟨rfl, id, proper, done⟩, start.goesOn running trivial rfl⟩
    · obtain rfl := Option.some.inj stepped
      refine ⟨⟨there, ?_, done.2⟩, start.goesOn running trivial rfl⟩
      show state.started ++ [(task, id)] = _
      rw [done.1, take_succ_zipIdx there]
  | stop =>
    rw [at_] at fits
    simp only [at_] at stepped
    obtain rfl := Option.some.inj stepped
    exact ⟨fits, start.goesOn running trivial rfl⟩
  | task id task steps =>
    rw [at_] at fits
    obtain ⟨there, started, completed⟩ := fits
    simp only [at_] at stepped
    match steps with
    | some 0 =>
      -- The task returns, and has caught up with those that have been called.
      obtain rfl := Option.some.inj stepped
      have within := (List.getElem?_eq_some_iff.mp there).1
      refine ⟨⟨within, started, ?_⟩, start.goesOn running trivial rfl⟩
      show state.completed ++ [(task, id)] = _
      rw [completed, take_succ_zipIdx there]
    | some (steps + 1) =>
      obtain rfl := Option.some.inj stepped
      exact ⟨⟨there, started, completed⟩, start.goesOn running trivial rfl⟩
    | none =>
      obtain rfl := Option.some.inj stepped
      exact invariant

/-- Every step keeps the invariant. -/
theorem Invariant.step (invariant : Invariant tasks state) {action : Action}
    (stepped : (runner duration tasks).step state action = some next) : Invariant tasks next := by
  have fits := invariant.goroutine
  have start := invariant.start
  cases action with
  | start => exact invariant.startStep stepped
  | goroutine => exact invariant.goroutineStep stepped
  | complete =>
    simp only [runner, Runner.step] at stepped
    split at stepped
    next err selects sends =>
      -- `Start` returns what the goroutine sends.
      rw [selects] at start
      rw [sends] at fits
      obtain rfl := Option.some.inj stepped
      exact ⟨⟨err, rfl, fits⟩, .inl ⟨rfl, start.2⟩⟩
    · exact nomatch stepped
  | timeout =>
    simp only [runner, Runner.step] at stepped
    split at stepped
    next ready =>
      rw [ready.1] at start
      obtain rfl := Option.some.inj stepped
      refine ⟨?_, .inr ⟨rfl, start.1, rfl⟩⟩
      exact fits.frame rfl rfl rfl fun err same => nomatch ready.1.symm.trans same
    · exact nomatch stepped
  | fires =>
    simp only [runner, Runner.step] at stepped
    split at stepped
    next running =>
      obtain rfl := Option.some.inj stepped
      refine ⟨fits.frame rfl rfl rfl fun _ => id, ?_⟩
      -- The time is in the channel, from which nobody has received.
      cases at_ : state.start with
      | notify | launch | select =>
        rw [at_] at start
        exact ⟨start.1, nofun⟩
      | returned err =>
        rw [at_] at start
        rcases start with ⟨ended, _⟩ | ⟨_, _, received⟩
        · exact .inl ⟨ended, nofun⟩
        · exact nomatch running.symm.trans received
    · exact nomatch stepped
  | interrupt =>
    simp only [runner, Runner.step] at stepped
    split at stepped
    · obtain rfl := Option.some.inj stepped
      exact ⟨fits.frame rfl rfl rfl fun _ => id, start⟩
    · exact nomatch stepped

/-- What holds after any number of steps. -/
theorem invariant_run {actions : List Action}
    (ran : (runner duration tasks).run initial actions = some state) : Invariant tasks state := by
  -- The invariant holds along the run.
  have preserved : ∀ state action next, Invariant tasks state →
      (runner duration tasks).step state action = some next → Invariant tasks next := by
    intro state action next before stepped
    exact before.step stepped
  exact Machine.run_invariant preserved invariant_initial ran

/-- What must have happened for the channels to be as they are. -/
structure History (actions : List Action) (state : State Task) : Prop where
  timeout : .timeout ∈ actions ↔ state.timeout = .received
  fires : state.timeout ≠ .running → .fires ∈ actions
  interrupt : state.interrupt = true ∨ state.interrupted = true → .interrupt ∈ actions

/-- A step that leaves the channels alone adds nothing to their history. -/
theorem History.quiet {past : List Action} {action : Action} (history : History past state)
    (other : action ≠ .timeout) (timeout : next.timeout = state.timeout)
    (interrupt : next.interrupt = true ∨ next.interrupted = true →
      state.interrupt = true ∨ state.interrupted = true) :
    History (past ++ [action]) next where
  -- No timeout is received by this step, and no signal comes.
  timeout := by
    rw [List.mem_append, List.mem_singleton, timeout, ← history.timeout]
    exact or_iff_left other.symm
  fires := by
    intro late
    rw [timeout] at late
    exact List.mem_append_left _ (history.fires late)
  interrupt := fun signal => List.mem_append_left _ (history.interrupt (interrupt signal))

/-- A step of the goroutine receives nothing but a signal that is there. -/
theorem goroutineStep_channels (stepped : Runner.goroutineStep duration tasks state = some next) :
    next.start = state.start ∧ next.timeout = state.timeout ∧
      (next.interrupt = true ∨ next.interrupted = true →
        state.interrupt = true ∨ state.interrupted = true) := by
  unfold Runner.goroutineStep at stepped
  -- In every place of the goroutine only the receive from the channel takes a signal away.
  split at stepped
  next id at_ =>
    split at stepped
    · obtain rfl := Option.some.inj stepped
      exact ⟨rfl, rfl, fun signal => signal⟩
    · obtain rfl := Option.some.inj stepped
      exact ⟨rfl, rfl, fun signal => signal⟩
  next id task at_ =>
    split at stepped
    next there =>
      obtain rfl := Option.some.inj stepped
      exact ⟨rfl, rfl, fun _ => .inl there⟩
    · obtain rfl := Option.some.inj stepped
      exact ⟨rfl, rfl, fun signal => signal⟩
  iterate 4
    · obtain rfl := Option.some.inj stepped
      exact ⟨rfl, rfl, fun signal => signal⟩
  iterate 3
    · exact nomatch stepped

/-- Every step adds to the history what it does to the channels. -/
theorem History.step {past : List Action} {action : Action} (history : History past state)
    (stepped : (runner duration tasks).step state action = some next) :
    History (past ++ [action]) next := by
  cases action with
  | start =>
    simp only [runner, Runner.step, startStep] at stepped
    split at stepped
    · obtain rfl := Option.some.inj stepped
      exact history.quiet nofun rfl id
    · obtain rfl := Option.some.inj stepped
      exact history.quiet nofun rfl id
    · exact nomatch stepped
    · exact nomatch stepped
  | goroutine =>
    obtain ⟨_, timeout, interrupt⟩ := goroutineStep_channels stepped
    exact history.quiet nofun timeout interrupt
  | complete =>
    simp only [runner, Runner.step] at stepped
    split at stepped
    · obtain rfl := Option.some.inj stepped
      exact history.quiet nofun rfl id
    · exact nomatch stepped
  | timeout =>
    simp only [runner, Runner.step] at stepped
    split at stepped
    next ready =>
      obtain rfl := Option.some.inj stepped
      have fires := history.fires (by rw [ready.2]; exact nofun)
      exact {
        timeout := ⟨fun _ => rfl, fun _ => by simp⟩
        fires := fun _ => List.mem_append_left _ fires
        interrupt := fun signal => List.mem_append_left _ (history.interrupt signal) }
    · exact nomatch stepped
  | fires =>
    simp only [runner, Runner.step] at stepped
    split at stepped
    next running =>
      obtain rfl := Option.some.inj stepped
      -- Nothing can have been received from the channel yet.
      have never : .timeout ∉ past := by
        intro taken
        exact nomatch running.symm.trans (history.timeout.mp taken)
      exact {
        timeout := by simp [never]
        fires := fun _ => by simp
        interrupt := fun signal => List.mem_append_left _ (history.interrupt signal) }
    · exact nomatch stepped
  | interrupt =>
    simp only [runner, Runner.step] at stepped
    split at stepped
    · obtain rfl := Option.some.inj stepped
      have timeout := history.timeout
      exact {
        timeout := by simpa using timeout
        fires := fun late => List.mem_append_left _ (history.fires late)
        interrupt := fun _ => by simp }
    · exact nomatch stepped

/-- The history of any number of steps. -/
theorem history_run {actions : List Action}
    (ran : (runner duration tasks).run initial actions = some state) : History actions state := by
  -- Each step adds its action to the history.
  have preserved : ∀ past state action next,
      (runner duration tasks).run initial past = some state → History past state →
        (runner duration tasks).step state action = some next →
          History (past ++ [action]) next := by
    intro past state action next _ before stepped
    exact before.step stepped
  -- At the start nothing has happened.
  refine Machine.run_history preserved ?_ ran
  exact ⟨⟨nofun, nofun⟩, fun late => absurd rfl late, by simp [initial]⟩

/-- After `Start` has returned, nobody but the goroutine itself moves it. -/
theorem step_returned {err : Option RunnerError} {action : Action}
    (returned : state.start = .returned err)
    (stepped : (runner duration tasks).step state action = some next) :
    next.start = .returned err ∧
      (action ≠ .goroutine → next.goroutine = state.goroutine ∧ next.started = state.started) := by
  -- After Start has returned, only the goroutine and the environment take steps.
  cases action with
  | start => simp [runner, Runner.step, startStep, returned] at stepped
  | goroutine =>
    obtain ⟨start, _⟩ := goroutineStep_channels stepped
    exact ⟨start.trans returned, fun other => absurd rfl other⟩
  | complete => simp [runner, Runner.step, returned] at stepped
  | timeout => simp [runner, Runner.step, returned] at stepped
  | fires | interrupt =>
    simp only [runner, Runner.step] at stepped
    split at stepped
    · obtain rfl := Option.some.inj stepped
      exact ⟨returned, fun _ => ⟨rfl, rfl⟩⟩
    · exact nomatch stepped

/-- `Start` has returned, the goroutine has ended, and no task has been called since. -/
structure Ended (err : Option RunnerError) (state : State Task) (more : List Action)
    (later : State Task) : Prop where
  start : later.start = .returned err
  goroutine : later.goroutine = .ended
  started : later.started = state.started
  idle : .goroutine ∉ more

/-- A goroutine that has ended does nothing more after `Start` has returned. -/
theorem ended_run {err : Option RunnerError} (returned : state.start = .returned err)
    (ended : state.goroutine = .ended) {more : List Action} {later : State Task}
    (ran : (runner duration tasks).run state more = some later) : Ended err state more later := by
  -- Neither Start nor the goroutine moves again.
  have preserved : ∀ past moment action next,
      (runner duration tasks).run state past = some moment → Ended err state past moment →
        (runner duration tasks).step moment action = some next →
          Ended err state (past ++ [action]) next := by
    intro past moment action next _ before stepped
    -- A goroutine that has ended takes no step.
    have other : action ≠ .goroutine := by
      rintro rfl
      simp [runner, Runner.step, goroutineStep, before.goroutine] at stepped
    obtain ⟨start, rest⟩ := step_returned before.start stepped
    obtain ⟨goroutine, started⟩ := rest other
    exact ⟨start, goroutine.trans before.goroutine, started.trans before.started,
      by simp [before.idle, other.symm]⟩
  exact Machine.run_history preserved ⟨returned, ended, rfl, nofun⟩ ran

/-- What is promised at every moment, after so many actions. -/
structure Correct (duration : Task → Nat → Option Nat) (tasks : List Task) (actions : List Action)
    (state : State Task) : Prop where
  /-- The tasks are called in index order, each once with its own index. -/
  started : state.started <+: tasks.zipIdx
  /-- All of them have returned, save one at most. -/
  completed : state.completed <+: state.started
  alone : state.started.length ≤ state.completed.length + 1
  /-- If there is no error, every task has been executed. -/
  none : state.start = .returned none → state.completed = tasks.zipIdx
  /-- An interrupt has been received, some tasks have been executed, and no other ever will be. -/
  interrupt : state.start = .returned (some .interrupt) →
    .interrupt ∈ actions ∧ state.interrupted = true ∧ state.completed = state.started ∧
      state.completed.length < tasks.length ∧
        ∀ more later, (runner duration tasks).run state more = some later →
          later.started = state.started
  /-- The timer has fired. -/
  timeout : state.start = .returned (some .timeout) →
    .fires ∈ actions ∧ state.timeout = .received

/-- What has been called and has returned goes by the order of the tasks. -/
theorem GoroutinePc.Fits.prefixes {pc : GoroutinePc Task} (fits : pc.Fits tasks state) :
    state.started <+: tasks.zipIdx ∧ state.completed <+: state.started ∧
      state.started.length ≤ state.completed.length + 1 := by
  have done : ∀ count, state.Done tasks count →
      state.started <+: tasks.zipIdx ∧ state.completed <+: state.started ∧
        state.started.length ≤ state.completed.length + 1 := by
    rintro count ⟨started, completed⟩
    rw [started, completed]
    exact ⟨List.take_prefix count _, List.prefix_refl _, Nat.le_succ _⟩
  have result : ∀ err, state.Result tasks err →
      state.started <+: tasks.zipIdx ∧ state.completed <+: state.started ∧
        state.started.length ≤ state.completed.length + 1 := by
    intro err before
    cases err with
    | none => exact done tasks.length before
    | some error =>
      cases error with
      | timeout => exact before.elim
      | interrupt =>
        obtain ⟨_, count, _, there⟩ := before
        exact done count there
  cases pc with
  | notLaunched => exact done 0 fits
  | range id | gotInterrupt id next => exact done id fits.2
  | stop => exact result (some .interrupt) fits
  | send err => exact result err fits
  | ended =>
    obtain ⟨err, _, there⟩ := fits
    exact result err there
  | task id called steps =>
    -- One task is being executed.
    obtain ⟨there, started, completed⟩ := fits
    rw [started, completed]
    refine ⟨List.take_prefix _ _, ?_, ?_⟩
    · exact List.take_prefix_take_left (Nat.le_succ id)
    · rw [List.length_take, List.length_take]
      omega

/-- If `Start` has returned anything but `ErrTimeout`, the goroutine has ended with it. -/
theorem Invariant.ended (invariant : Invariant tasks state) {err : Option RunnerError}
    (returned : state.start = .returned err) (early : err ≠ some .timeout) :
    state.goroutine = .ended ∧ state.Result tasks err := by
  have start := invariant.start
  have fits := invariant.goroutine
  rw [returned] at start
  -- Start returns what the goroutine has sent, unless the timeout was received.
  rcases start with ⟨ended, _⟩ | ⟨late, _⟩
  · rw [ended] at fits
    obtain ⟨same, there, result⟩ := fits
    obtain rfl : err = same := StartPc.returned.inj (returned.symm.trans there)
    exact ⟨ended, result⟩
  · exact absurd late early

/-- What `Start` returns says what has become of the tasks. -/
theorem runner_correct (duration : Task → Nat → Option Nat) (tasks : List Task)
    (actions : List Action) (state : State Task)
    (ran : (runner duration tasks).run initial actions = some state) :
    Correct duration tasks actions state := by
  have invariant := invariant_run ran
  have history := history_run ran
  obtain ⟨started, completed, alone⟩ := invariant.goroutine.prefixes
  exact {
    started
    completed
    alone
    none := by
      intro returned
      obtain ⟨_, done⟩ := invariant.ended returned nofun
      rw [done.2, List.take_of_length_le (by simp)]
    interrupt := by
      intro returned
      obtain ⟨ended, received, count, proper, done⟩ := invariant.ended returned nofun
      refine ⟨history.interrupt (.inr received), received, done.2.trans done.1.symm, ?_, ?_⟩
      · rw [done.2, List.length_take, List.length_zipIdx]
        omega
      · intro more later followed
        exact (ended_run returned ended followed).started
    timeout := by
      intro returned
      have start := invariant.start
      rw [returned] at start
      have received : state.timeout = .received := by
        rcases start with ⟨ended, _⟩ | ⟨_, _, received⟩
        · -- What the goroutine sends is never `ErrTimeout`.
          have fits := invariant.goroutine
          rw [ended] at fits
          obtain ⟨same, there, result⟩ := fits
          obtain rfl := StartPc.returned.inj (returned.symm.trans there)
          exact result.elim
        · exact received
      exact ⟨history.fires (by rw [received]; exact nofun), received⟩ }

/-- An interrupt comes while the first of two tasks is executed. -/
def interruptedRun : List Action :=
  [.start, .start, .goroutine, .goroutine, .interrupt, .goroutine, .goroutine, .goroutine,
    .goroutine, .goroutine, .complete]

/-- `Start` returns `ErrInterrupt` after the first task has been executed. -/
theorem runner_correct_interruptedRun :
    ∃ state, (runner (fun _ _ => some 1) [7, 8]).run initial interruptedRun = some state ∧
      (state.start, state.completed) = (.returned (some .interrupt), [(7, 0)]) ∧
      Correct (fun _ _ => some 1) [7, 8] interruptedRun state := by
  -- The signal comes during the first task, so the second one is not started.
  have shown : ((runner (fun _ _ => some 1) [7, 8]).run initial interruptedRun).map
      (fun state => (state.start, state.completed)) =
        some (.returned (some .interrupt), [(7, 0)]) := by decide
  obtain ⟨state, ran, facts⟩ := Option.map_eq_some_iff.mp shown
  exact ⟨state, ran, facts, runner_correct _ _ interruptedRun state ran⟩

/-- Every task returns after some number of steps. -/
def Terminating (duration : Task → Nat → Option Nat) (tasks : List Task) : Prop :=
  ∀ task ∈ tasks, ∀ id, duration task id ≠ none

/-- The goroutine never stays blocked, and has only so many steps to take until it has ended. -/
structure Released (duration : Task → Nat → Option Nat) (tasks : List Task)
    (state : State Task) : Prop where
  goesOn : ∀ more later, (runner duration tasks).run state more = some later →
    later.goroutine ≠ .ended → ∃ next, (runner duration tasks).step later .goroutine = some next
  bounded : ∃ most, ∀ more later, (runner duration tasks).run state more = some later →
    more.count .goroutine ≤ most

/-- How many steps it takes to execute the tasks from this one on, and to leave the loop. -/
def toRun (duration : Task → Nat → Option Nat) (tasks : List Task) (id : Nat) : Nat :=
  ((tasks.zipIdx.drop id).map fun entry => (duration entry.1 entry.2).getD 0 + 3).sum + 1

/-- How many steps the goroutine has to take before it sends. -/
def GoroutinePc.toGo (duration : Task → Nat → Option Nat) (tasks : List Task) :
    GoroutinePc Task → Nat
  | .notLaunched | .send _ | .ended => 0
  | .range id => toRun duration tasks id
  | .gotInterrupt id next => (duration next id).getD 0 + 2 + toRun duration tasks (id + 1)
  | .stop => 1
  | .task id _ steps => steps.getD 0 + 1 + toRun duration tasks (id + 1)

/-- The task that is being executed returns. -/
def GoroutinePc.Returns : GoroutinePc Task → Prop
  | .task _ _ steps => steps ≠ none
  | _ => True

/-- A task takes its own steps and three around them. -/
theorem toRun_of_task {id : Nat} {task : Task} (there : tasks[id]? = some task) :
    toRun duration tasks id =
      (duration task id).getD 0 + 3 + toRun duration tasks (id + 1) := by
  -- The task is the first of those that are still to be run.
  have entry : tasks.zipIdx[id]? = some (task, id) := by simp [List.getElem?_zipIdx, there]
  obtain ⟨within, same⟩ := List.getElem?_eq_some_iff.mp entry
  unfold toRun
  rw [List.drop_eq_getElem_cons within, same, List.map_cons, List.sum_cons]
  exact add_assoc _ _ 1

/-- Until it sends, the goroutine can always go on, and comes closer to sending. -/
theorem Invariant.goroutine_goesOn (invariant : Invariant tasks state)
    (terminating : Terminating duration tasks) (returns : state.goroutine.Returns)
    (running : state.goroutine.Running) (notYet : ∀ err, state.goroutine ≠ .send err) :
    ∃ next, (runner duration tasks).step state .goroutine = some next ∧
      next.goroutine.Returns ∧ next.goroutine.Running ∧
        next.goroutine.toGo duration tasks < state.goroutine.toGo duration tasks := by
  have fits := invariant.goroutine
  simp only [runner, Runner.step, Runner.goroutineStep]
  cases at_ : state.goroutine with
  | notLaunched | ended =>
    rw [at_] at running
    exact running.elim
  | send err => exact absurd at_ (notYet err)
  | range id =>
    cases there : tasks[id]? with
    | some task =>
      simp only [there]
      refine ⟨_, rfl, trivial, trivial, ?_⟩
      simp only [GoroutinePc.toGo]
      rw [toRun_of_task there]
      omega
    | none =>
      simp only [there]
      exact ⟨_, rfl, trivial, trivial, Nat.succ_pos _⟩
  | gotInterrupt id task =>
    rw [at_] at fits
    simp only
    split
    · refine ⟨_, rfl, trivial, trivial, ?_⟩
      simp only [GoroutinePc.toGo]
      omega
    -- The task is called here, with its duration as the steps left to it.
    · have returning := terminating task (List.mem_of_getElem? fits.1) id
      refine ⟨_, rfl, returning, trivial, ?_⟩
      simp only [GoroutinePc.toGo]
      omega
  | stop => exact ⟨_, rfl, trivial, trivial, Nat.one_pos⟩
  | task id task steps =>
    match steps with
    | some 0 =>
      refine ⟨_, rfl, trivial, trivial, ?_⟩
      simp only [GoroutinePc.toGo]
      omega
    | some (steps + 1) =>
      refine ⟨_, rfl, nofun, trivial, ?_⟩
      simp only [GoroutinePc.toGo, Option.getD_some]
      omega
    | none =>
      rw [at_] at returns
      exact absurd rfl returns

/-- If every task returns, so does the one that is being executed. -/
theorem returns_run (terminating : Terminating duration tasks) {actions : List Action}
    (ran : (runner duration tasks).run initial actions = some state) :
    state.goroutine.Returns := by
  -- Whether the goroutine goes on follows from the invariant, so both are carried along the run.
  have preserved : ∀ state action next, Invariant tasks state ∧ state.goroutine.Returns →
      (runner duration tasks).step state action = some next →
        Invariant tasks next ∧ next.goroutine.Returns := by
    rintro state action next ⟨invariant, returns⟩ stepped
    refine ⟨invariant.step stepped, ?_⟩
    cases action with
    | goroutine =>
      obtain ⟨running, notYet⟩ := goroutineStep_running stepped
      obtain ⟨other, same, kept, _⟩ :=
        invariant.goroutine_goesOn terminating returns running notYet
      obtain rfl := Option.some.inj (same.symm.trans stepped)
      exact kept
    | start =>
      simp only [runner, Runner.step, startStep] at stepped
      split at stepped
      · obtain rfl := Option.some.inj stepped
        exact returns
      · obtain rfl := Option.some.inj stepped
        exact trivial
      · exact nomatch stepped
      · exact nomatch stepped
    | complete =>
      simp only [runner, Runner.step] at stepped
      split at stepped
      · obtain rfl := Option.some.inj stepped
        exact trivial
      · exact nomatch stepped
    | timeout | fires | interrupt =>
      simp only [runner, Runner.step] at stepped
      split at stepped
      · obtain rfl := Option.some.inj stepped
        exact returns
      · exact nomatch stepped
  exact (Machine.run_invariant preserved ⟨invariant_initial, trivial⟩ ran).2

/-- If `Start` has returned `ErrTimeout`, the goroutine comes to a send that nobody receives. -/
theorem Invariant.blocked (invariant : Invariant tasks state)
    (terminating : Terminating duration tasks) (returns : state.goroutine.Returns)
    (running : state.goroutine.Running) :
    ∃ later, (runner duration tasks).Reaches state later ∧ ∃ err, later.goroutine = .send err := by
  -- The goroutine goes on by itself until it has a result to send, and each step brings it closer.
  have progress : ∀ moment,
      (Invariant tasks moment ∧ moment.goroutine.Returns ∧ moment.goroutine.Running) →
        (¬ ∃ err, moment.goroutine = .send err) → ∃ action next,
          (runner duration tasks).step moment action = some next ∧
            (Invariant tasks next ∧ next.goroutine.Returns ∧ next.goroutine.Running) ∧
              next.goroutine.toGo duration tasks < moment.goroutine.toGo duration tasks := by
    rintro moment ⟨before, returns, running⟩ notYet
    obtain ⟨next, stepped, kept, onward, closer⟩ :=
      before.goroutine_goesOn terminating returns running (not_exists.mp notYet)
    exact ⟨.goroutine, next, stepped, ⟨before.step stepped, kept, onward⟩, closer⟩
  obtain ⟨later, reaches, _, sends⟩ := Machine.reaches_done
    (fun moment : State Task => moment.goroutine.toGo duration tasks) progress
      ⟨invariant, returns, running⟩
  exact ⟨later, reaches, sends⟩

/-- After `Start` has returned, the goroutine gets to its end unless `ErrTimeout` was returned. -/
theorem released_iff (terminating : Terminating duration tasks) (actions : List Action)
    (state : State Task) (ran : (runner duration tasks).run initial actions = some state)
    (err : Option RunnerError) (returned : state.start = .returned err) :
    Released duration tasks state ↔ .timeout ∉ actions := by
  have invariant := invariant_run ran
  have history := history_run ran
  have start := invariant.start
  rw [returned] at start
  constructor
  · intro released taken
    rcases start with ⟨_, early⟩ | ⟨_, running, _⟩
    · exact early (history.timeout.mp taken)
    · -- Nobody receives what it sends in the end.
      obtain ⟨later, ⟨more, followed⟩, err, sends⟩ :=
        invariant.blocked terminating (returns_run terminating ran) running
      obtain ⟨next, stepped⟩ := released.goesOn more later followed (by rw [sends]; exact nofun)
      simp [runner, Runner.step, goroutineStep, sends] at stepped
  · intro never
    rcases start with ⟨ended, _⟩ | ⟨_, _, received⟩
    · -- `Start` has received what the goroutine sent, which was its last step.
      refine ⟨fun more later followed unended => ?_, 0, fun more later followed => ?_⟩
      · exact absurd (ended_run returned ended followed).goroutine unended
      · rw [List.count_eq_zero_of_not_mem (ended_run returned ended followed).idle]
    · exact absurd (history.timeout.mpr received) never

/-- `Start` returns an error of the tasks in time, and the goroutine has ended. -/
theorem released_iff_interruptedRun :
    ∃ state, (runner (fun _ _ => some 1) [7, 8]).run initial interruptedRun = some state ∧
      (Released (fun _ _ => some 1) [7, 8] state ↔ .timeout ∉ interruptedRun) := by
  -- The run ends with an interrupt, not with the timeout.
  have shown : ((runner (fun _ _ => some 1) [7, 8]).run initial interruptedRun).map State.start =
      some (.returned (some .interrupt)) := by decide
  obtain ⟨state, ran, returned⟩ := Option.map_eq_some_iff.mp shown
  -- Every task terminates.
  have terminating : Terminating (fun _ _ => some 1) [7, 8] := by
    intro _ _ _
    exact nofun
  exact ⟨state, ran, released_iff terminating interruptedRun state ran _ returned⟩

/-- The time runs out before the only task has been called. -/
def timedOutRun : List Action := [.start, .start, .fires, .timeout]

/-- The goroutine comes to its send only after `Start` has returned, and stays there. -/
theorem timedOutRun_not_released :
    ¬ ∀ (duration : Nat → Nat → Option Nat) (tasks : List Nat), Terminating duration tasks →
      ∀ (actions : List Action) (state : State Nat),
        (runner duration tasks).run initial actions = some state →
          ∀ err, state.start = .returned err → Released duration tasks state := by
  intro promised
  -- After the timeout the goroutine gets to its send, and nobody receives any more.
  have shown : ((runner (fun _ _ => some 0) [7]).run initial timedOutRun).map
      (fun state => (state.start, (runner (fun _ _ => some 0) [7]).run state
        [.goroutine, .goroutine, .goroutine, .goroutine] |>.map State.goroutine)) =
          some (.returned (some .timeout), some (.send none)) := by decide
  obtain ⟨state, ran, facts⟩ := Option.map_eq_some_iff.mp shown
  obtain ⟨returned, followed⟩ := Prod.mk.inj facts
  obtain ⟨later, more, sends⟩ := Option.map_eq_some_iff.mp followed
  have terminating : Terminating (fun _ _ => some 0) [7] := by
    intro _ _ _
    exact nofun
  have released := promised _ [7] terminating timedOutRun state ran _ returned
  -- It would have to be able to go on from there.
  obtain ⟨next, stepped⟩ := released.goesOn _ later more (by rw [sends]; exact nofun)
  simp [runner, Runner.step, goroutineStep, sends] at stepped

end SysProg.GoPatterns.Runner
