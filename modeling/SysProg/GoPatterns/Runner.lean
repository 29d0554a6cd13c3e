import SysProg.Lib.Machine

/-! A runner that executes its tasks within a given time, unless it is interrupted. -/

namespace SysProg.GoPatterns.Runner

/-- The errors that `Start` returns. -/
inductive RunnerError where
  /-- `ErrTimeout`. -/
  | timeout
  /-- `ErrInterrupt`. -/
  | interrupt
  deriving DecidableEq, Repr

/-- Where the goroutine stands that calls `Start`. -/
inductive StartPc where
  /-- `signal.Notify(r.interrupt, os.Interrupt)`. -/
  | notify
  /-- `go func() { r.complete <- r.run() }()`. -/
  | launch
  /-- The `select` that receives from `r.complete` or from `r.timeout`. -/
  | select
  | returned (err : Option RunnerError)
  deriving DecidableEq, Repr

/-- Where the goroutine stands that `Start` launches. -/
inductive GoroutinePc (Task : Type*) where
  | notLaunched
  /-- `for id, task := range r.tasks`, with this `id` next. -/
  | range (id : Nat)
  /-- `r.gotInterrupt()`. -/
  | gotInterrupt (id : Nat) (task : Task)
  /-- `signal.Stop(r.interrupt)`, after which `run` returns. -/
  | stop
  /-- `task(id)`, which takes this many more steps before it returns, if it ever does. -/
  | task (id : Nat) (task : Task) (steps : Option Nat)
  /-- `r.complete <- err`, where nothing is buffered. -/
  | send (err : Option RunnerError)
  | ended
  deriving DecidableEq, Repr

/-- The channel `timeout`, which has room for one value. -/
inductive Timer where
  | running
  /-- The time is in the channel. -/
  | fired
  /-- The time has been received. -/
  | received
  deriving DecidableEq, Repr

/-- A `Runner`, the goroutine that calls `Start` and the one that it launches. -/
structure State (Task : Type*) where
  start : StartPc
  goroutine : GoroutinePc Task
  /-- A signal is in the channel `interrupt`, which has room for one. -/
  interrupt : Bool
  /-- Signals are relayed to the channel. -/
  notified : Bool
  timeout : Timer
  /-- A signal has been received from the channel. -/
  interrupted : Bool
  /-- The tasks that have been called, each with its ID. -/
  started : List (Task × Nat)
  /-- The tasks that have returned, each with its ID. -/
  completed : List (Task × Nat)
  deriving DecidableEq

variable {Task : Type*}

/-- `New` has made the runner, and its tasks have been added. -/
def initial : State Task where
  start := .notify
  goroutine := .notLaunched
  interrupt := false
  notified := false
  timeout := .running
  interrupted := false
  started := []
  completed := []

/-- One step of `Start`, apart from receiving. -/
def startStep (state : State Task) : Option (State Task) :=
  match state.start with
  | .notify => some { state with start := .launch, notified := true }
  | .launch => some { state with start := .select, goroutine := .range 0 }
  | .select | .returned _ => none

/-- One step of the goroutine, apart from sending, where a task may take any number of steps. -/
def goroutineStep (duration : Task → Nat → Option Nat) (tasks : List Task) (state : State Task) :
    Option (State Task) :=
  match state.goroutine with
  | .range id =>
    match tasks[id]? with
    | some task => some { state with goroutine := .gotInterrupt id task }
    | none => some { state with goroutine := .send none }
  | .gotInterrupt id task =>
    if state.interrupt then
      some { state with goroutine := .stop, interrupt := false, interrupted := true }
    else
      some { state with
        goroutine := .task id task (duration task id)
        started := state.started ++ [(task, id)] }
  | .stop => some { state with goroutine := .send (some .interrupt), notified := false }
  | .task id task (some 0) =>
    some { state with
      goroutine := .range (id + 1)
      completed := state.completed ++ [(task, id)] }
  | .task id task (some (steps + 1)) => some { state with goroutine := .task id task (some steps) }
  -- The task goes on without end.
  | .task _ _ none => some state
  | .notLaunched | .send _ | .ended => none

/-- What happens next. -/
inductive Action where
  | start
  | goroutine
  /-- `Start` receives from `r.complete` what the goroutine sends. -/
  | complete
  /-- `Start` receives from `r.timeout`. -/
  | timeout
  /-- The time runs out. -/
  | fires
  /-- The operating system sends an interrupt. -/
  | interrupt
  deriving DecidableEq, Repr

/-- One step. -/
def step (duration : Task → Nat → Option Nat) (tasks : List Task) (state : State Task) :
    Action → Option (State Task)
  | .start => startStep state
  | .goroutine => goroutineStep duration tasks state
  | .complete =>
    match state.start, state.goroutine with
    | .select, .send err => some { state with start := .returned err, goroutine := .ended }
    | _, _ => none
  | .timeout =>
    if state.start = .select ∧ state.timeout = .fired then
      some { state with start := .returned (some .timeout), timeout := .received }
    else none
  | .fires => if state.timeout = .running then some { state with timeout := .fired } else none
  | .interrupt =>
    -- A signal that does not fit is dropped; one that is not relayed kills the program.
    if state.notified then some { state with interrupt := true } else none

/-- The runner, one step at a time. -/
def runner (duration : Task → Nat → Option Nat) (tasks : List Task) :
    Machine (State Task) Action :=
  ⟨step duration tasks⟩

end SysProg.GoPatterns.Runner
