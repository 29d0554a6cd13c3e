import SysProg.Lib.Machine

/-! A function that many threads call so that an initialization is executed once. -/

namespace SysProg.Threads.OneTimeInit

/-- Where a thread stands with its call of `one_time_init`. -/
inductive Pc where
  /-- Not inside any call. -/
  | outside
  /-- `pthread_mutex_lock(&(once_control->mtx))`. -/
  | lock
  /-- `if (!once_control->called)`. -/
  | test
  /-- `(*init)()`. -/
  | callInit
  /-- The thread executes the function `init`. -/
  | init
  /-- `once_control->called = 1`. -/
  | setCalled
  /-- `pthread_mutex_unlock(&(once_control->mtx))`. -/
  | unlock
  deriving DecidableEq, Repr

/-- A `once_struct`, the threads that use it, and what they have done so far. -/
structure State (Thread : Type*) where
  pc : Thread → Pc
  /-- The thread that has locked the mutex, which is a normal one, so that its calls do not fail. -/
  mtx : Option Thread
  called : Bool
  /-- How often the execution of `init` has begun. -/
  begun : Nat
  /-- How often the execution of `init` has completed. -/
  completed : Nat
  /-- How many calls of a thread have returned. -/
  returned : Thread → Nat

variable {Thread : Type*}

/-- `ONCE_INITIALIZER`, before any call. -/
def initial : State Thread where
  pc _ := .outside
  mtx := none
  called := false
  begun := 0
  completed := 0
  returned _ := 0

variable [DecidableEq Thread]

/-- A thread goes on at another instruction. -/
def State.goto (state : State Thread) (thread : Thread) (pc : Pc) : State Thread :=
  { state with pc := Function.update state.pc thread pc }

/-- What happens next. -/
inductive Action (Thread : Type*) where
  /-- A thread calls `one_time_init`. -/
  | call (thread : Thread)
  /-- A thread makes the next step of its call. -/
  | goesOn (thread : Thread)
  deriving DecidableEq, Repr

/-- One step of a thread. -/
def step (state : State Thread) : Action Thread → Option (State Thread)
  | .call thread =>
    if state.pc thread = .outside then some (state.goto thread .lock) else none
  | .goesOn thread =>
    match state.pc thread with
    | .outside => none
    | .lock =>
      if state.mtx = none then some { state.goto thread .test with mtx := some thread } else none
    | .test => some (state.goto thread (if state.called then .unlock else .callInit))
    | .callInit => some { state.goto thread .init with begun := state.begun + 1 }
    | .init => some { state.goto thread .setCalled with completed := state.completed + 1 }
    | .setCalled => some { state.goto thread .unlock with called := true }
    | .unlock => some { state.goto thread .outside with
        mtx := none
        returned := Function.update state.returned thread (state.returned thread + 1) }

/-- All threads that share one `once_struct`, one step at a time. -/
def oneTimeInit (Thread : Type*) [DecidableEq Thread] : Machine (State Thread) (Action Thread) :=
  ⟨step⟩

end SysProg.Threads.OneTimeInit
