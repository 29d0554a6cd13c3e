import SysProg.Lib.CInt
import SysProg.Lib.Lock
import SysProg.Lib.Machine

/-! Two threads that increment a global variable, with a lock of some kind or without one. -/

namespace SysProg.Threads.ThreadIncr

/-- Where a thread stands. -/
inductive ThreadPc where
  | notCreated
  /-- `j < loops`. -/
  | test
  /-- The call that asks for the lock. -/
  | lock
  /-- `loc = glob`. -/
  | load
  /-- `loc++`. -/
  | add
  /-- `glob = loc`. -/
  | store
  /-- The call that gives the lock back. -/
  | unlock
  /-- `j++`. -/
  | next
  | returned
  deriving DecidableEq, Repr

/-- A thread, with its variables. -/
structure Thread where
  pc : ThreadPc
  j : Nat
  loc : Int
  deriving DecidableEq, Repr

/-- Where `main` stands. -/
inductive MainPc where
  /-- `pthread_create`. -/
  | create (index : Fin 2)
  /-- `pthread_join`. -/
  | join (index : Fin 2)
  | print
  | exited
  deriving DecidableEq, Repr

/-- The threads and the variables, where `σ` is what a lock consists of. -/
structure State (σ : Type) where
  main : MainPc
  threads : Fin 2 → Thread
  glob : Int
  lock : σ
  /-- What `main` has printed. -/
  printed : Option Int

/-- A program, whose threads may ask for a lock before they increment the variable. -/
structure Variant (σ : Type) where
  guard : Option (Lock (Fin 2) σ)
  initial : σ

/-- `thread_incr.c`, which does without any synchronization. -/
def threadIncr : Variant Unit := ⟨none, ()⟩

/-- A program whose threads use a lock. -/
def guarded {σ : Type} (lock : Lock (Fin 2) σ) : Variant σ := ⟨some lock, lock.initial⟩

/-- `thread_incr_mutex.c`. -/
def threadIncrMutex : Variant (Option (Fin 2)) := guarded Lock.mutex

/-- `thread_incr_rwlock.c`. -/
def threadIncrRwlock : Variant (Lock.ReadersWriter (Fin 2)) := guarded Lock.writeLock

/-- `thread_incr_spinlock.c`. -/
def threadIncrSpinlock : Variant Bool := guarded Lock.spinLock

/-- `thread_incr_psem.c`, with `sem_init(&sem, 0, 1)`. -/
def threadIncrPsem : Variant Nat := guarded (Lock.semaphore 1)

variable {σ : Type}

/-- The program has been started. -/
def initial (variant : Variant σ) : State σ where
  main := .create 0
  threads _ := ⟨.notCreated, 0, 0⟩
  glob := 0
  lock := variant.initial
  printed := none

/-- A thread goes on at another instruction. -/
def State.threadAt (state : State σ) (index : Fin 2) (thread : Thread) : State σ :=
  { state with threads := Function.update state.threads index thread }

/-- One step of `main`. -/
def mainStep (state : State σ) : Option (State σ) :=
  match state.main with
  | .create index =>
    let created := state.threadAt index ⟨.test, 0, 0⟩
    some { created with main := if index = 0 then .create 1 else .join 0 }
  | .join index =>
    if (state.threads index).pc = .returned then
      some { state with main := if index = 0 then .join 1 else .print }
    else none
  | .print => some { state with main := .exited, printed := some state.glob }
  | .exited => none

/-- One step of `threadFunc`. -/
def threadStep (guard : Option (Lock (Fin 2) σ)) (loops : Nat) (state : State σ) (index : Fin 2) :
    Option (State σ) :=
  let thread := state.threads index
  match thread.pc with
  | .notCreated => none
  | .test =>
    if thread.j < loops then
      let pc : ThreadPc := if guard.isSome then .lock else .load
      some (state.threadAt index { thread with pc })
    else some (state.threadAt index { thread with pc := .returned })
  | .lock => do
    let lock ← guard
    let held ← lock.acquire index state.lock
    return { state.threadAt index { thread with pc := .load } with lock := held }
  | .load => some (state.threadAt index { thread with pc := .add, loc := state.glob })
  | .add => some (state.threadAt index { thread with pc := .store, loc := int (thread.loc + 1) })
  | .store =>
    let pc : ThreadPc := if guard.isSome then .unlock else .next
    some { state.threadAt index { thread with pc } with glob := thread.loc }
  | .unlock => do
    let lock ← guard
    let free ← lock.release index state.lock
    return { state.threadAt index { thread with pc := .next } with lock := free }
  | .next => some (state.threadAt index { thread with pc := .test, j := thread.j + 1 })
  | .returned => none

/-- What happens next. -/
inductive Action where
  | main
  | thread (index : Fin 2)
  deriving DecidableEq, Repr

/-- The program, whose threads take turns in any order. -/
def machine (variant : Variant σ) (loops : Nat) : Machine (State σ) Action where
  step state action :=
    match action with
    | .main => mainStep state
    | .thread index => threadStep variant.guard loops state index

/-- A program can print this number. -/
def Prints (variant : Variant σ) (loops : Nat) (number : Int) : Prop :=
  ∃ actions state, (machine variant loops).run (initial variant) actions = some state ∧
    state.printed = some number

end SysProg.Threads.ThreadIncr
