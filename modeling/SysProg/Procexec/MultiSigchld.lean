import Mathlib.Data.Fintype.Basic
import SysProg.Lib.Machine

/-! A program that reaps its children in the handler of a signal that is not queued. -/

namespace SysProg.Procexec.MultiSigchld

/-- What has become of a child. -/
inductive Child where
  | notCreated
  | alive
  /-- Terminated, and not waited on yet. -/
  | zombie
  | reaped
  deriving DecidableEq, Repr

/-- Where `sigchldHandler` stands. -/
inductive HandlerPc where
  /-- `waitpid(-1, &status, WNOHANG)`. -/
  | waitpid
  /-- `numLiveChildren--`. -/
  | decrement
  /-- `sleep(5)`, and the return. -/
  | returns
  deriving DecidableEq, Repr

/-- Where `main` stands, from the moment it has blocked `SIGCHLD`. -/
inductive MainPc where
  /-- The loop that creates the children, about to create this one. -/
  | create (j : Nat)
  /-- `while (numLiveChildren > 0)`. -/
  | loop
  /-- `sigsuspend(&emptyMask)`. -/
  | sigsuspend
  /-- The loop has ended. -/
  | finished
  /-- `errExit("fork")`. -/
  | failed
  deriving DecidableEq, Repr

/-- The program and its children. -/
structure State (children : Nat) where
  main : MainPc
  /-- The handler, if it has interrupted `main`. -/
  handler : Option HandlerPc
  child : Fin children → Child
  /-- `SIGCHLD` is pending, which it is at most once. -/
  pending : Bool
  numLiveChildren : Int
  sigCnt : Nat

variable {children : Nat}

/-- `main` has counted its arguments and blocked `SIGCHLD`. -/
def initial (children : Nat) : State children where
  main := .create 0
  handler := none
  child _ := .notCreated
  pending := false
  numLiveChildren := children
  sigCnt := 0

/-- Something becomes of a child. -/
def State.childBecomes (state : State children) (index : Fin children) (child : Child) :
    State children :=
  { state with child := Function.update state.child index child }

/-- What happens next. -/
inductive Action (children : Nat) where
  /-- The process goes on, in its handler if that runs. -/
  | goesOn
  /-- `fork` fails. -/
  | forkFails
  /-- `waitpid` finds this child. -/
  | reaps (index : Fin children)
  | terminates (index : Fin children)
  /-- `SIGCHLD` is sent for some other reason, such as a child that is stopped. -/
  | raises
  deriving DecidableEq, Repr

/-- One step of the handler, apart from a child that it finds. -/
def handlerStep (state : State children) : HandlerPc → Option (State children)
  | .waitpid =>
    -- The result is 0, or -1 if there are no children, only if no child is dead.
    if ∃ index, state.child index = .zombie then none
    else some { state with handler := some .returns }
  | .decrement =>
    some { state with handler := some .waitpid, numLiveChildren := state.numLiveChildren - 1 }
  | .returns => some { state with handler := none, main := .loop, sigCnt := state.sigCnt + 1 }

/-- One step of `main`, while the handler does not run. -/
def mainStep (state : State children) : Option (State children) :=
  match state.main with
  | .create j =>
    if there : j < children then
      some { state.childBecomes ⟨j, there⟩ .alive with main := .create (j + 1) }
    else some { state with main := .loop }
  | .loop =>
    some { state with main := if 0 < state.numLiveChildren then .sigsuspend else .finished }
  | .sigsuspend =>
    -- The signal is delivered here only, and stays blocked while its handler runs.
    if state.pending then some { state with handler := some .waitpid, pending := false } else none
  | .finished | .failed => none

/-- One step. -/
def step (state : State children) : Action children → Option (State children)
  | .goesOn =>
    match state.handler with
    | some pc => handlerStep state pc
    | none => mainStep state
  | .forkFails =>
    match state.main with
    | .create j => if j < children then some { state with main := .failed } else none
    | _ => none
  | .reaps index =>
    if state.handler = some .waitpid ∧ state.child index = .zombie then
      some { state.childBecomes index .reaped with handler := some .decrement }
    else none
  | .terminates index =>
    if state.child index = .alive then
      some { state.childBecomes index .zombie with pending := true }
    else none
  | .raises => some { state with pending := true }

/-- The program and its children, one step at a time. -/
def multiSigchld (children : Nat) : Machine (State children) (Action children) :=
  ⟨step⟩

end SysProg.Procexec.MultiSigchld
