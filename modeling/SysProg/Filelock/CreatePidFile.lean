import Mathlib.Logic.Function.Basic
import SysProg.Lib.Decimal
import SysProg.Lib.Machine

/-! Programs that lock a file and write their PID into it, so that only one of them runs. -/

namespace SysProg.Filelock

/-- A file, and the process that has a write lock on all of it. -/
structure File (ι : Type*) where
  content : List UInt8
  lock : Option ι
  deriving DecidableEq

variable {ι : Type*}

/-- `ftruncate(fd, 0)`. -/
def File.ftruncate (file : File ι) : File ι :=
  { file with content := [] }

/-- `write` at the beginning of the file. -/
def File.write (file : File ι) (bytes : List UInt8) : File ι :=
  { file with content := bytes ++ file.content.drop bytes.length }

/-- The locks of a process are released when it terminates. -/
def File.release [DecidableEq ι] (file : File ι) (process : ι) : File ι :=
  if file.lock = some process then { file with lock := none } else file

/-- `lockRegion(fd, F_WRLCK, SEEK_SET, 0, 0)`, which does not wait. -/
def lockRegion [DecidableEq ι] (file : File ι) (process : ι) : Option (File ι) :=
  if file.lock = none ∨ file.lock = some process then some { file with lock := some process }
  else none

namespace CreatePidFile

/-- `BUF_SIZE`. -/
def bufSize : Nat := 100

/-- `FD_CLOEXEC`, and `CPF_CLOEXEC` as well. -/
def fdCloexec : Nat := 1

/-- A `pid_t` that a process can have. -/
abbrev Pid : Type := { pid : Nat // 0 < pid ∧ pid < 2 ^ 31 }

/-- The line that tells a PID. -/
def pidText (pid : Pid) : List UInt8 :=
  Decimal.natText pid.val ++ [10]

/-- `snprintf(buf, BUF_SIZE, "%ld\n", (long) getpid())`. -/
def buf (pid : Pid) : List UInt8 :=
  (pidText pid).take (bufSize - 1)

/-- Where a process stands. -/
inductive Pc where
  /-- `open(pidFile, O_RDWR | O_CREAT, S_IRUSR | S_IWUSR)`. -/
  | open_
  /-- `fcntl(fd, F_GETFD)`. -/
  | getFd
  /-- `fcntl(fd, F_SETFD, flags)`. -/
  | setFd (flags : Nat)
  /-- `lockRegion(fd, F_WRLCK, SEEK_SET, 0, 0)`. -/
  | lockRegion
  /-- `ftruncate(fd, 0)`. -/
  | ftruncate
  /-- `write(fd, buf, strlen(buf))`. -/
  | write
  /-- `createPidFile` has returned, and the process has not deleted the file. -/
  | runs
  /-- The process has deleted the file, and is about to terminate. -/
  | deleted
  | terminated
  deriving DecidableEq, Repr

/-- A process, the file that its descriptor refers to, and the flags of the descriptor. -/
structure Process where
  pc : Pc
  inode : Nat
  fdFlags : Nat
  deriving DecidableEq, Repr

/-- The processes and the files. -/
structure State (ι : Type*) where
  process : ι → Process
  /-- The file that the pathname leads to. -/
  name : Option Nat
  files : Nat → File ι
  /-- The number of files that there have been. -/
  inodes : Nat

/-- No process has called the function, and the file may have been left behind. -/
def initial (ι : Type*) (left : Option (List UInt8)) : State ι where
  process _ := ⟨.open_, 0, 0⟩
  name := left.map fun _ => 0
  files _ := ⟨left.getD [], none⟩
  inodes := 1

variable [DecidableEq ι]

/-- A process goes on. -/
def State.processAt (state : State ι) (process : ι) (now : Process) : State ι :=
  { state with process := Function.update state.process process now }

/-- Something becomes of a file. -/
def State.fileBecomes (state : State ι) (inode : Nat) (file : File ι) : State ι :=
  { state with files := Function.update state.files inode file }

/-- A process terminates, and releases its locks. -/
def State.terminates (state : State ι) (process : ι) : State ι :=
  { state.processAt process { state.process process with pc := .terminated } with
    files := fun inode => (state.files inode).release process }

/-- `open` with `O_CREAT` finds a file, or makes one. -/
def State.opens (state : State ι) (process : ι) (pc : Pc) : State ι :=
  match state.name with
  | some inode => state.processAt process ⟨pc, inode, 0⟩
  | none =>
    { (state.processAt process ⟨pc, state.inodes, 0⟩).fileBecomes state.inodes ⟨[], none⟩ with
      name := some state.inodes, inodes := state.inodes + 1 }

/-- The next step of a process, which has these `flags` and this PID. -/
def goesOn (flags : ι → Nat) (pid : ι → Pid) (state : State ι) (process : ι) : Option (State ι) :=
  let now := state.process process
  let file := state.files now.inode
  match now.pc with
  | .open_ =>
    some (state.opens process (if flags process &&& fdCloexec ≠ 0 then .getFd else .lockRegion))
  | .getFd => some (state.processAt process { now with pc := .setFd (now.fdFlags ||| fdCloexec) })
  | .setFd flags => some (state.processAt process { now with pc := .lockRegion, fdFlags := flags })
  | .lockRegion =>
    match lockRegion file process with
    | some locked =>
      some ((state.processAt process { now with pc := .ftruncate }).fileBecomes now.inode locked)
    -- `fatal`, because the file is locked.
    | none => some (state.terminates process)
  | .ftruncate =>
    some ((state.processAt process { now with pc := .write }).fileBecomes now.inode file.ftruncate)
  | .write =>
    some ((state.processAt process { now with pc := .runs }).fileBecomes now.inode
      (file.write (buf (pid process))))
  | .runs => some { state.processAt process { now with pc := .deleted } with name := none }
  | .deleted => some (state.terminates process)
  | .terminated => none

/-- What happens next. -/
inductive Action (ι : Type*) where
  | goesOn (process : ι)
  /-- A process writes only so many bytes, which is fatal. -/
  | writesPart (process : ι) (count : Nat)
  /-- A process terminates, be it because a call has failed. -/
  | terminates (process : ι)
  deriving DecidableEq, Repr

/-- One step. -/
def step (flags : ι → Nat) (pid : ι → Pid) (state : State ι) : Action ι → Option (State ι)
  | .goesOn process => goesOn flags pid state process
  | .writesPart process count =>
    let now := state.process process
    if now.pc = .write ∧ count < (buf (pid process)).length then
      some ((state.fileBecomes now.inode
        ((state.files now.inode).write ((buf (pid process)).take count))).terminates process)
    else none
  | .terminates process =>
    if (state.process process).pc = .terminated then none else some (state.terminates process)

/-- The processes, one system call at a time. -/
def createPidFile (flags : ι → Nat) (pid : ι → Pid) : Machine (State ι) (Action ι) :=
  ⟨step flags pid⟩

end CreatePidFile

end SysProg.Filelock
