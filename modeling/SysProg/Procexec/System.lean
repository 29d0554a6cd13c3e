import SysProg.Lib.Signals
import SysProg.Lib.Transfers

/-! The implementation of `system`, with the signal attributes of the caller and of the child. -/

namespace SysProg.Procexec.System

/-- `EINTR`. -/
def eintr : Int := 4

/-- How the system calls go. -/
structure World where
  /-- `fork`: the child, or a value for `errno`. -/
  fork : Except Int Nat
  /-- Each call of `waitpid`: the status of the child, or a value for `errno`. -/
  waitpid : Nat → Except Int Int
  /-- What the calls that are not looked at make of `errno`. -/
  disturb : Int → Int

/-- The caller. -/
structure Process where
  signals : SignalState
  errno : Int

/-- A command, and the signal attributes it starts with. -/
structure Started where
  command : List UInt8
  signals : SignalState

/-- What comes of a call. -/
structure Result where
  status : Int
  process : Process
  /-- The shell, when there has been a child. -/
  child : Option Started

variable (world : World)

/-- `sigprocmask` or `sigaction`, whose result is not looked at. -/
def Process.change (process : Process) (f : SignalState → SignalState) : Process where
  signals := f process.signals
  errno := world.disturb process.errno

/-- `saIgnore`. -/
def saIgnore : Sigaction := ⟨.ignore, 0, ∅⟩

/-- `saDefault`. -/
def saDefault : Sigaction := ⟨.default, 0, ∅⟩

/-- The loop over `waitpid`: the status and `errno`, as long as the fuel lasts. -/
def waitLoop : Nat → Nat → Int → Option (Int × Int)
  | 0, _, _ => none
  | fuel + 1, call, errno =>
    match world.waitpid call with
    | .ok status => some (status, errno)
    | .error error =>
      -- Error other than EINTR.
      if error ≠ eintr then some (-1, error)
      else waitLoop fuel (call + 1) error

/-- What the child does before `execl`, with what has been saved in the parent. -/
def childSignals (signals : SignalState) (origMask : Finset Signal)
    (saOrigInt saOrigQuit : Sigaction) : SignalState :=
  let signals :=
    if saOrigInt.saHandler ≠ .ignore then signals.sigaction .sigint saDefault else signals
  let signals :=
    if saOrigQuit.saHandler ≠ .ignore then signals.sigaction .sigquit saDefault else signals
  signals.setMask origMask

/-- `system` with a command. -/
def systemCommand (command : List UInt8) (process : Process) (fuel : Nat) : Option Result :=
  -- Block SIGCHLD.
  let origMask := process.signals.blocked
  let process := process.change world fun signals => signals.block {Signal.sigchld}
  -- Ignore SIGINT and SIGQUIT.
  let saOrigInt := process.signals.actions .sigint
  let process := process.change world fun signals => signals.sigaction .sigint saIgnore
  let saOrigQuit := process.signals.actions .sigquit
  let process := process.change world fun signals => signals.sigaction .sigquit saIgnore
  let restore (status : Int) (process : Process) (child : Option Started) : Result :=
    let savedErrno := process.errno
    let process := process.change world fun signals => signals.setMask origMask
    let process := process.change world fun signals => signals.sigaction .sigint saOrigInt
    let process := process.change world fun signals => signals.sigaction .sigquit saOrigQuit
    ⟨status, { process with errno := savedErrno }, child⟩
  match world.fork with
  | .error errno => some (restore (-1) { process with errno } none)
  | .ok _ =>
    let child : Started :=
      ⟨command, (childSignals process.signals origMask saOrigInt saOrigQuit).exec⟩
    (waitLoop world fuel 0 process.errno).map fun (status, errno) =>
      restore status { process with errno } (some child)

/-- `":"`. -/
def colonCommand : List UInt8 := [58]

/-- `system`. -/
def system (command : Option (List UInt8)) (process : Process) (fuel : Nat) : Option Result :=
  match command with
  -- Is a shell available?
  | none =>
    (systemCommand world colonCommand process fuel).map fun result =>
      { result with status := if result.status = 0 then 1 else 0 }
  | some command => systemCommand world command process fuel

end SysProg.Procexec.System
