import Mathlib.Logic.Function.Basic
import SysProg.Lib.Machine

/-! Processes that agree on which of them initialises the semaphore that they all operate on. -/

namespace SysProg.Svsem

/-- `SEMVMX`, the largest value of a semaphore. -/
def semvmx : Nat := 32767

/-- A set with one semaphore, as far as the program looks at it. -/
structure SemSet where
  semval : Nat
  /-- `sem_otime`, which is 0 until the first `semop()`. -/
  otime : Nat
  deriving DecidableEq, Repr

/-- `semctl` with `SETVAL`, which leaves `sem_otime` alone. -/
def SemSet.setval (set : SemSet) (val : Nat) : SemSet :=
  { set with semval := val }

/-- `semop` with one operation at some time, if it neither blocks nor fails. -/
def SemSet.semop (set : SemSet) (op : Int) (now : Nat) : Option SemSet :=
  -- An operation of 0 waits for the value to be 0, and a negative one for the value to suffice.
  if (op = 0 → set.semval = 0) ∧ 0 ≤ set.semval + op ∧ set.semval + op ≤ semvmx ∧ now ≠ 0 then
    some ⟨(set.semval + op).toNat, now⟩
  else none

namespace GoodInit

/-- `MAX_TRIES`. -/
def maxTries : Nat := 10

/-- What an `int` becomes as the `short` that is `sem_op`. -/
def semOp (operation : Int) : Int :=
  operation.bmod (2 ^ 16)

/-- Where a process stands. -/
inductive Pc where
  /-- `semget(key, 1, IPC_CREAT | IPC_EXCL | perms)`. -/
  | semget
  /-- `semctl(semid, 0, SETVAL, arg)`, in the creator. -/
  | setval
  /-- The `semop` in the creator that changes nothing but `sem_otime`. -/
  | dummy
  /-- `semget(key, 1, perms)`, because the set exists. -/
  | existing
  /-- `j < MAX_TRIES`, with the last `ds.sem_otime`. -/
  | loop (j otime : Nat)
  /-- `semctl(semid, 0, IPC_STAT, arg)`. -/
  | stat (j : Nat)
  /-- `if (ds.sem_otime != 0)`. -/
  | test (j otime : Nat)
  /-- `if (ds.sem_otime == 0)` after the loop. -/
  | check (otime : Nat)
  /-- The `semop` that the process was started for. -/
  | semop
  | done
  /-- `fatal("Existing semaphore not initialized")`. -/
  | gaveUp
  /-- A call has failed. -/
  | failed
  deriving DecidableEq, Repr

/-- What has been done to the set. -/
inductive Event (ι : Type*) where
  | setval (process : ι)
  | dummy (process : ι)
  /-- The operation that the process was started for. -/
  | operate (process : ι)
  deriving DecidableEq, Repr

/-- The process that has done something. -/
def Event.process {ι : Type*} : Event ι → ι
  | .setval process | .dummy process | .operate process => process

/-- The processes, and the set if there is one. -/
structure State (ι : Type*) where
  pc : ι → Pc
  set : Option SemSet
  /-- The process that has created the set. -/
  creator : Option ι
  /-- Everything that has been done to the set, in order. -/
  history : List (Event ι)

/-- All processes have been started, and there is no set. -/
def initial (ι : Type*) : State ι where
  pc _ := .semget
  set := none
  creator := none
  history := []

/-- What happens next. -/
inductive Action (ι : Type*) where
  /-- A process goes on at some time; a set that it creates has a value that happens to be there. -/
  | goesOn (process : ι) (now : Nat) (there : Nat)
  /-- The next call of a process fails. -/
  | fails (process : ι)
  deriving DecidableEq, Repr

variable {ι : Type*} [DecidableEq ι]

/-- A process gets to another place. -/
def State.goto (state : State ι) (process : ι) (pc : Pc) : State ι :=
  { state with pc := Function.update state.pc process pc }

/-- Something is done to the set. -/
def State.does (state : State ι) (set : SemSet) (event : Event ι) : State ι :=
  { state with set := some set, history := state.history ++ [event] }

/-- The next step of a process, for the operation in its argument. -/
def goesOn (operation : ι → Int) (state : State ι) (process : ι) (now there : Nat) :
    Option (State ι) :=
  match state.pc process with
  | .semget =>
    match state.set with
    | none =>
      some { state.goto process .setval with set := some ⟨there, 0⟩, creator := some process }
    | some _ => some (state.goto process .existing)
  | .setval =>
    state.set.map fun set => (state.does (set.setval 0) (.setval process)).goto process .dummy
  | .dummy =>
    (state.set.bind fun set => set.semop 0 now).map fun set =>
      (state.does set (.dummy process)).goto process .semop
  | .existing => state.set.map fun _ => state.goto process (.loop 0 0)
  | .loop j otime => some (state.goto process (if j < maxTries then .stat j else .check otime))
  | .stat j => state.set.map fun set => state.goto process (.test j set.otime)
  | .test j otime =>
    some (state.goto process (if otime ≠ 0 then .check otime else .loop (j + 1) otime))
  | .check otime => some (state.goto process (if otime = 0 then .gaveUp else .semop))
  | .semop =>
    (state.set.bind fun set => set.semop (semOp (operation process)) now).map fun set =>
      (state.does set (.operate process)).goto process .done
  | .done | .gaveUp | .failed => none

/-- The place is one where a call may fail. -/
def Pc.calls : Pc → Bool
  | .semget | .setval | .dummy | .existing | .stat _ | .semop => true
  | .loop _ _ | .test _ _ | .check _ | .done | .gaveUp | .failed => false

/-- One step. -/
def step (operation : ι → Int) (state : State ι) : Action ι → Option (State ι)
  | .goesOn process now there => goesOn operation state process now there
  | .fails process =>
    if (state.pc process).calls then some (state.goto process .failed) else none

/-- The processes, one step at a time. -/
def goodInit (operation : ι → Int) : Machine (State ι) (Action ι) :=
  ⟨step operation⟩

end GoodInit

end SysProg.Svsem
