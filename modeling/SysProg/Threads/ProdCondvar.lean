import SysProg.Lib.CInt
import SysProg.Lib.Machine
import SysProg.Lib.Mutex

/-! Producers that signal a condition variable, and a consumer that waits for units. -/

namespace SysProg.Threads.ProdCondvar

/-- How many units a producer is asked to produce, which is what `atoi` makes of an argument. -/
abbrev Count := { count : Nat // count < 2 ^ 31 }

/-- Where a producer stands. -/
inductive ProducerPc where
  | notCreated
  /-- `j < cnt`. -/
  | loop
  /-- `pthread_mutex_lock(&mtx)`. -/
  | lock
  /-- `avail++`. -/
  | increment
  /-- `pthread_mutex_unlock(&mtx)`. -/
  | unlock
  /-- `pthread_cond_signal(&cond)`. -/
  | signal
  | returned
  deriving DecidableEq, Repr

/-- A producer, with the variable of its loop. -/
structure Producer where
  pc : ProducerPc
  j : Nat
  deriving DecidableEq, Repr

/-- Where `main` stands. -/
inductive MainPc where
  /-- The loop that creates the threads, about to create this one. -/
  | create (j : Nat)
  /-- `pthread_mutex_lock(&mtx)`. -/
  | lock
  /-- `while (avail == 0)`. -/
  | test
  /-- Asleep in `pthread_cond_wait(&cond, &mtx)`. -/
  | asleep
  /-- Awake in `pthread_cond_wait(&cond, &mtx)`, which locks the mutex again. -/
  | relock
  /-- `while (avail > 0)`. -/
  | consume
  /-- `pthread_mutex_unlock(&mtx)`. -/
  | unlock
  /-- `if (done)`. -/
  | checkDone
  /-- `exit(EXIT_SUCCESS)`. -/
  | exited
  deriving DecidableEq, Repr

/-- The threads and their variables. -/
structure State (threads : Nat) where
  main : MainPc
  producers : Fin threads → Producer
  mtx : Option (Party (Fin threads))
  avail : Int
  totRequired : Int
  numConsumed : Int
  done : Bool

variable {threads : Nat}

/-- The program has been started. -/
def initial (threads : Nat) : State threads where
  main := .create 0
  producers _ := ⟨.notCreated, 0⟩
  mtx := none
  avail := 0
  totRequired := 0
  numConsumed := 0
  done := false

/-- A producer goes on at another instruction. -/
def State.producerAt (state : State threads) (index : Fin threads) (producer : Producer) :
    State threads :=
  { state with producers := Function.update state.producers index producer }

/-- One step of `main`. -/
def mainStep (counts : Fin threads → Count) (state : State threads) : Option (State threads) :=
  match state.main with
  | .create j =>
    if there : j < threads then
      some { state.producerAt ⟨j, there⟩ ⟨.loop, 0⟩ with
        main := .create (j + 1)
        totRequired := int (state.totRequired + (counts ⟨j, there⟩).val) }
    else some { state with main := .lock }
  | .lock | .relock =>
    if state.mtx = none then some { state with main := .test, mtx := some .main } else none
  | .test =>
    -- Waiting unlocks the mutex.
    if state.avail = 0 then some { state with main := .asleep, mtx := none }
    else some { state with main := .consume }
  | .asleep => none
  | .consume =>
    if 0 < state.avail then
      let numConsumed := int (state.numConsumed + 1)
      some { state with
        numConsumed
        avail := int (state.avail - 1)
        done := state.totRequired ≤ numConsumed }
    else some { state with main := .unlock }
  | .unlock => some { state with main := .checkDone, mtx := none }
  | .checkDone => some { state with main := if state.done then .exited else .lock }
  | .exited => none

/-- `main` is woken if it is asleep, and has to lock the mutex again. -/
def wake (main : MainPc) : MainPc :=
  if main = .asleep then .relock else main

/-- One step of a producer. -/
def producerStep (counts : Fin threads → Count) (state : State threads) (index : Fin threads) :
    Option (State threads) :=
  let j := (state.producers index).j
  -- When `main` exits, the whole process does.
  if state.main = .exited then none
  else match (state.producers index).pc with
    | .notCreated => none
    | .loop =>
      if j < (counts index).val then some (state.producerAt index ⟨.lock, j⟩)
      else some (state.producerAt index ⟨.returned, j⟩)
    | .lock =>
      if state.mtx = none then
        some { state.producerAt index ⟨.increment, j⟩ with mtx := some (.member index) }
      else none
    | .increment =>
      some { state.producerAt index ⟨.unlock, j⟩ with avail := int (state.avail + 1) }
    | .unlock => some { state.producerAt index ⟨.signal, j⟩ with mtx := none }
    | .signal => some { state.producerAt index ⟨.loop, j + 1⟩ with main := wake state.main }
    | .returned => none

/-- What happens next. -/
inductive Action (threads : Nat) where
  | main
  | producer (index : Fin threads)
  /-- `pthread_cond_wait` returns although nobody has signalled. -/
  | spurious
  deriving DecidableEq, Repr

/-- All threads, one step at a time. -/
def prodCondvar (counts : Fin threads → Count) : Machine (State threads) (Action threads) where
  step
    | state, .main => mainStep counts state
    | state, .producer index => producerStep counts state index
    | state, .spurious =>
      if state.main = .asleep then some { state with main := .relock } else none

end SysProg.Threads.ProdCondvar
