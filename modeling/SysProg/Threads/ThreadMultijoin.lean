import SysProg.Lib.Machine
import SysProg.Lib.Mutex

/-! Threads that tell the main thread of their termination, so that it joins them in any order. -/

namespace SysProg.Threads.ThreadMultijoin

/-- The state of a thread, as it is recorded. -/
inductive TState where
  | alive
  /-- Terminated, and not joined yet. -/
  | terminated
  | joined
  deriving DecidableEq, Repr

/-- Where a thread stands. -/
inductive ThreadPc where
  | notCreated
  /-- `sleep(thread[idx].sleepTime)`. -/
  | sleep
  /-- `pthread_mutex_lock(&threadMutex)`. -/
  | lock
  /-- `numUnjoined++`. -/
  | increment
  /-- `thread[idx].state = TS_TERMINATED`. -/
  | setState
  /-- `pthread_mutex_unlock(&threadMutex)`. -/
  | unlock
  /-- `pthread_cond_signal(&threadDied)`. -/
  | signal
  | returned
  deriving DecidableEq, Repr

/-- A thread, what is recorded about it, and how often it has been joined. -/
structure Entry where
  pc : ThreadPc
  state : TState
  joins : Nat
  deriving DecidableEq, Repr

/-- Where `main` stands. -/
inductive MainPc (threads : Nat) where
  /-- `if (argc < 2)`. -/
  | start
  /-- The loop that creates the threads, about to create this one. -/
  | create (idx : Nat)
  /-- `while (numLive > 0)`. -/
  | loop
  /-- `pthread_mutex_lock(&threadMutex)`. -/
  | lock
  /-- `while (numUnjoined == 0)`. -/
  | test
  /-- Asleep in `pthread_cond_wait(&threadDied, &threadMutex)`. -/
  | asleep
  /-- Awake in `pthread_cond_wait(&threadDied, &threadMutex)`, which locks the mutex again. -/
  | relock
  /-- The loop over the threads, about to look at this one. -/
  | scan (idx : Nat)
  /-- `pthread_join(thread[idx].tid, NULL)`. -/
  | join (idx : Fin threads)
  /-- `thread[idx].state = TS_JOINED`, with the counters. -/
  | record (idx : Fin threads)
  /-- `pthread_mutex_unlock(&threadMutex)`. -/
  | unlock
  /-- `exit(EXIT_SUCCESS)`, or the end after a message about the usage. -/
  | exited
  deriving DecidableEq, Repr

/-- The threads and the global variables. -/
structure State (threads : Nat) where
  main : MainPc threads
  thread : Fin threads → Entry
  threadMutex : Option (Party (Fin threads))
  totThreads : Int
  numLive : Int
  numUnjoined : Int

variable {threads : Nat}

/-- The program has been started with an argument for each thread. -/
def initial (threads : Nat) : State threads where
  main := .start
  thread _ := ⟨.notCreated, .alive, 0⟩
  threadMutex := none
  totThreads := 0
  numLive := 0
  numUnjoined := 0

/-- What is recorded about a thread changes, or where it stands. -/
def State.threadAt (state : State threads) (idx : Fin threads) (entry : Entry) : State threads :=
  { state with thread := Function.update state.thread idx entry }

/-- One step of `main`. -/
def mainStep (state : State threads) : Option (State threads) :=
  match state.main with
  | .start => some { state with main := if threads = 0 then .exited else .create 0 }
  | .create idx =>
    if there : idx < threads then
      some { state.threadAt ⟨idx, there⟩ ⟨.sleep, .alive, 0⟩ with main := .create (idx + 1) }
    else some { state with main := .loop, totThreads := threads, numLive := threads }
  | .loop => some { state with main := if 0 < state.numLive then .lock else .exited }
  | .lock | .relock =>
    if state.threadMutex = none then
      some { state with main := .test, threadMutex := some .main }
    else none
  | .test =>
    -- Waiting unlocks the mutex.
    if state.numUnjoined = 0 then some { state with main := .asleep, threadMutex := none }
    else some { state with main := .scan 0 }
  | .asleep => none
  | .scan idx =>
    if (idx : Int) < state.totThreads then
      if there : idx < threads then
        if (state.thread ⟨idx, there⟩).state = .terminated then
          some { state with main := .join ⟨idx, there⟩ }
        else some { state with main := .scan (idx + 1) }
      else none
    else some { state with main := .unlock }
  | .join idx =>
    let entry := state.thread idx
    -- The call blocks until the thread has returned.
    if entry.pc = .returned then
      some { state.threadAt idx { entry with joins := entry.joins + 1 } with main := .record idx }
    else none
  | .record idx =>
    some { state.threadAt idx { state.thread idx with state := .joined } with
      main := .scan (idx.val + 1)
      numLive := state.numLive - 1
      numUnjoined := state.numUnjoined - 1 }
  | .unlock => some { state with main := .loop, threadMutex := none }
  | .exited => none

/-- `main` is woken if it is asleep, and has to lock the mutex again. -/
def wake (main : MainPc threads) : MainPc threads :=
  if main = .asleep then .relock else main

/-- One step of a thread. -/
def threadStep (state : State threads) (idx : Fin threads) : Option (State threads) :=
  let entry := state.thread idx
  -- When `main` exits, the whole process does.
  if state.main = .exited then none
  else match entry.pc with
    | .notCreated => none
    | .sleep => some (state.threadAt idx { entry with pc := .lock })
    | .lock =>
      if state.threadMutex = none then
        some { state.threadAt idx { entry with pc := .increment } with
          threadMutex := some (.member idx) }
      else none
    | .increment =>
      some { state.threadAt idx { entry with pc := .setState } with
        numUnjoined := state.numUnjoined + 1 }
    | .setState => some (state.threadAt idx { entry with pc := .unlock, state := .terminated })
    | .unlock => some { state.threadAt idx { entry with pc := .signal } with threadMutex := none }
    | .signal =>
      some { state.threadAt idx { entry with pc := .returned } with main := wake state.main }
    | .returned => none

/-- What happens next. -/
inductive Action (threads : Nat) where
  | main
  | thread (idx : Fin threads)
  /-- `pthread_cond_wait` returns although nobody has signalled. -/
  | spurious
  deriving DecidableEq, Repr

/-- All threads, one step at a time. -/
def threadMultijoin (threads : Nat) : Machine (State threads) (Action threads) where
  step
    | state, .main => mainStep state
    | state, .thread idx => threadStep state idx
    | state, .spurious =>
      if state.main = .asleep then some { state with main := .relock } else none

end SysProg.Threads.ThreadMultijoin
