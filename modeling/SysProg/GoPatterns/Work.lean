import Mathlib.Logic.Function.Basic
import SysProg.Lib.Machine

/-! A pool of goroutines that execute the tasks which are submitted over an unbuffered channel. -/

namespace SysProg.GoPatterns.Work

/-- Where the goroutine stands that calls `New` and, later on, `Shutdown`. -/
inductive MainPc where
  /-- `p.wg.Add(maxGoroutines)`. -/
  | add
  /-- The loop that launches the goroutines, about to launch this one. -/
  | launch (i : Nat)
  /-- `New` has returned, and `Shutdown` is yet to close the channel. -/
  | started
  /-- `p.wg.Wait()`, after `close(p.work)`. -/
  | wait
  /-- `Shutdown` has returned. -/
  | shutDown
  deriving DecidableEq, Repr

/-- Where a goroutine of the pool stands. -/
inductive GoroutinePc (Worker : Type*) where
  | notLaunched
  /-- `for w := range p.work`, about to receive. -/
  | range
  /-- `w.Task()`, which takes this many more steps before it returns. -/
  | task (w : Worker) (steps : Nat)
  /-- `p.wg.Done()`. -/
  | done
  | returned
  deriving DecidableEq, Repr

/-- The goroutine is ready to receive a worker. -/
def GoroutinePc.receives {Worker : Type*} : GoroutinePc Worker → Bool
  | .range => true
  | .notLaunched | .task _ _ | .done | .returned => false

/-- A `Pool` with its goroutines, and the goroutines that call `Run`. -/
structure State (Worker : Type*) (maxGoroutines runners : Nat) where
  main : MainPc
  goroutines : Fin maxGoroutines → GoroutinePc Worker
  /-- The workers that each goroutine has yet to submit, by one call of `Run` after the other. -/
  runs : Fin runners → List Worker
  /-- The channel `work` is closed. -/
  closed : Bool
  /-- The counter of the wait group. -/
  wg : Nat
  /-- The workers that have been handed over, in order. -/
  submitted : List Worker
  /-- The workers whose task has returned, in order. -/
  finished : List Worker

variable {Worker : Type*} {maxGoroutines runners : Nat}

/-- The pool has just been made, and the goroutines are going to submit these workers. -/
def initial (maxGoroutines : Nat) (plan : Fin runners → List Worker) :
    State Worker maxGoroutines runners where
  main := .add
  goroutines _ := .notLaunched
  runs := plan
  closed := false
  wg := 0
  submitted := []
  finished := []

/-- A goroutine of the pool gets to another place. -/
def State.goroutineAt (state : State Worker maxGoroutines runners) (i : Fin maxGoroutines)
    (pc : GoroutinePc Worker) : State Worker maxGoroutines runners :=
  { state with goroutines := Function.update state.goroutines i pc }

/-- One step of the goroutine that makes the pool and shuts it down. -/
def mainStep (state : State Worker maxGoroutines runners) :
    Option (State Worker maxGoroutines runners) :=
  match state.main with
  | .add => some { state with main := .launch 0, wg := state.wg + maxGoroutines }
  | .launch i =>
    if there : i < maxGoroutines then
      some { state.goroutineAt ⟨i, there⟩ .range with main := .launch (i + 1) }
    else some { state with main := .started }
  | .started =>
    -- The pool is shut down after every call of `Run` has returned.
    if ∀ runner, state.runs runner = [] then some { state with main := .wait, closed := true }
    else none
  | .wait => if state.wg = 0 then some { state with main := .shutDown } else none
  | .shutDown => none

/-- One step of a goroutine of the pool, apart from receiving a worker. -/
def goroutineStep (state : State Worker maxGoroutines runners) (i : Fin maxGoroutines) :
    Option (State Worker maxGoroutines runners) :=
  match state.goroutines i with
  | .range => if state.closed then some (state.goroutineAt i .done) else none
  | .task w 0 => some { state.goroutineAt i .range with finished := state.finished ++ [w] }
  | .task w (steps + 1) => some (state.goroutineAt i (.task w steps))
  | .done =>
    -- The counter of a wait group must not become negative.
    if 0 < state.wg then some { state.goroutineAt i .returned with wg := state.wg - 1 } else none
  | .notLaunched | .returned => none

/-- `p.work <- w` in `Run` meets a goroutine that receives, which then calls `w.Task()`. -/
def handOff (duration : Worker → Nat) (state : State Worker maxGoroutines runners)
    (runner : Fin runners) (i : Fin maxGoroutines) : Option (State Worker maxGoroutines runners) :=
  match state.runs runner with
  | [] => none
  | w :: rest =>
    if state.main = .started ∧ state.closed = false ∧ (state.goroutines i).receives then
      some { state.goroutineAt i (.task w (duration w)) with
        runs := Function.update state.runs runner rest
        submitted := state.submitted ++ [w] }
    else none

/-- Which goroutine makes the next step, or which two. -/
inductive Action (maxGoroutines runners : Nat) where
  | main
  | goroutine (i : Fin maxGoroutines)
  | handOff (runner : Fin runners) (i : Fin maxGoroutines)
  deriving DecidableEq, Repr

/-- All goroutines, one step at a time, where each task takes some number of steps. -/
def work (duration : Worker → Nat) (maxGoroutines runners : Nat) :
    Machine (State Worker maxGoroutines runners) (Action maxGoroutines runners) where
  step
    | state, .main => mainStep state
    | state, .goroutine i => goroutineStep state i
    | state, .handOff runner i => handOff duration state runner i

end SysProg.GoPatterns.Work
