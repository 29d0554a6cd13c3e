import SysProg.Lib.Machine
import SysProg.Lib.Tally

/-! Threads that wait for each other at a barrier, again and again. -/

namespace SysProg.Threads.BarrierDemo

variable {threads : Nat}

/-- Where a thread stands. -/
inductive ThreadPc where
  | notCreated
  | started
  /-- `j < numBarriers`. -/
  | test (j : Nat)
  | aboutToWait (j : Nat)
  /-- The call of `pthread_barrier_wait`. -/
  | wait (j : Nat)
  /-- Asleep in `pthread_barrier_wait`. -/
  | asleep (j : Nat)
  /-- `pthread_barrier_wait` has returned `PTHREAD_BARRIER_SERIAL_THREAD`, or 0. -/
  | passed (j : Nat) (serial : Bool)
  /-- The newline that is printed by one of the threads. -/
  | newline (j : Nat)
  | terminating
  | returned
  deriving DecidableEq

/-- Where `main` stands. -/
inductive MainPc where
  /-- `pthread_barrier_init`. -/
  | init
  /-- `pthread_create`, in the loop over the threads. -/
  | create (threadNum : Nat)
  | newline
  /-- `pthread_join`, in the loop over the threads. -/
  | join (threadNum : Nat)
  | exited
  /-- `pthread_barrier_init` has failed. -/
  | failed
  deriving DecidableEq

/-- What is printed. -/
inductive Line (threads : Nat) where
  | started (thread : Fin threads)
  | aboutToWait (thread : Fin threads) (j : Nat)
  | passed (thread : Fin threads) (j : Nat) (serial : Bool)
  | newline
  | terminating (thread : Fin threads)
  deriving DecidableEq

/-- The threads, the barrier, and the output. -/
structure State (threads : Nat) where
  main : MainPc
  pcs : Fin threads → ThreadPc
  /-- How many threads wait at the barrier. -/
  waiting : Nat
  output : List (Line threads)

/-- Who takes the next step, and which thread is told so if the barrier opens. -/
inductive Action (threads : Nat) where
  | main
  | thread (thread chosen : Fin threads)
  deriving DecidableEq

/-- Before the barrier has been initialised. -/
def initial (threads : Nat) : State threads where
  main := .init
  pcs _ := .notCreated
  waiting := 0
  output := []

/-- The state in which one of the threads has gone on. -/
def State.goto (state : State threads) (thread : Fin threads) (pc : ThreadPc) : State threads :=
  { state with pcs := Function.update state.pcs thread pc }

/-- The state with another line of output. -/
def State.print (state : State threads) (line : Line threads) : State threads :=
  { state with output := state.output ++ [line] }

/-- What a thread that may be asleep becomes when the barrier opens. -/
def wake (chosen thread : Fin threads) : ThreadPc → ThreadPc
  | .asleep j => .passed j (decide (thread = chosen))
  | pc => pc

/-- `pthread_barrier_wait`: the last of the threads wakes the others. -/
def State.barrierWait (state : State threads) (thread chosen : Fin threads) (j : Nat) :
    State threads :=
  if state.waiting + 1 = threads then
    { state with
      waiting := 0
      pcs := Function.update (fun other => wake chosen other (state.pcs other)) thread
        (.passed j (decide (thread = chosen))) }
  else { state.goto thread (.asleep j) with waiting := state.waiting + 1 }

/-- One step of `threadFunc`. -/
def threadStep (numBarriers : Nat) (state : State threads) (thread chosen : Fin threads) :
    Option (State threads) :=
  match state.pcs thread with
  | .started => some ((state.print (.started thread)).goto thread (.test 0))
  | .test j => some (state.goto thread (if j < numBarriers then .aboutToWait j else .terminating))
  | .aboutToWait j => some ((state.print (.aboutToWait thread j)).goto thread (.wait j))
  | .wait j => some (state.barrierWait thread chosen j)
  | .passed j serial =>
    some ((state.print (.passed thread j serial)).goto thread
      (if serial then .newline j else .test (j + 1)))
  | .newline j => some ((state.print .newline).goto thread (.test (j + 1)))
  | .terminating => some ((state.print (.terminating thread)).goto thread .returned)
  | .notCreated | .asleep _ | .returned => none

/-- One step of `main`. -/
def mainStep (state : State threads) : Option (State threads) :=
  match state.main with
  | .init =>
    -- A barrier for no thread at all is not valid.
    some { state with main := if threads = 0 then .failed else .create 0 }
  | .create threadNum =>
    if there : threadNum < threads then
      some { state.goto ⟨threadNum, there⟩ .started with main := .create (threadNum + 1) }
    else some { state with main := .newline }
  | .newline => some { state.print .newline with main := .join 0 }
  | .join threadNum =>
    if there : threadNum < threads then
      if state.pcs ⟨threadNum, there⟩ = .returned then
        some { state with main := .join (threadNum + 1) }
      else none
    else some { state with main := .exited }
  | .exited | .failed => none

/-- The program, for so many threads and rounds. -/
def machine (threads numBarriers : Nat) : Machine (State threads) (Action threads) where
  step state
    | .main => mainStep state
    | .thread thread chosen => threadStep numBarriers state thread chosen

end SysProg.Threads.BarrierDemo
