import SysProg.Lib.Machine
import SysProg.Seccomp.Filters

/-! The processes whose system calls a supervisor is notified of, and what may happen to them. -/

namespace SysProg.Seccomp

/-- A process, told apart from all others that have had its PID. -/
structure Process where
  pid : Nat
  birth : Nat
  deriving DecidableEq, Repr

/-- A system call whose process is blocked until it is answered. -/
structure Call where
  process : Process
  data : SeccompData
  /-- The supervisor has been notified of it. -/
  received : Bool

/-- `struct seccomp_notif`. -/
structure SeccompNotif where
  id : Nat
  pid : Nat
  data : SeccompData

/-- The processes and the kernel, as far as notifications are concerned. -/
structure World where
  /-- Which birth a PID stands for at present. -/
  holder : Nat → Option Nat
  /-- How many processes have been born. -/
  births : Nat
  /-- The mapped bytes of each process. -/
  memory : Process → Nat → Option UInt8
  /-- The call that a notification ID stands for, as long as its process is blocked in it. -/
  blocked : Nat → Option Call
  /-- How many notification IDs have been given out, so that the next one is fresh. -/
  notified : Nat

/-- Nobody has been born yet. -/
def World.initial : World where
  holder _ := none
  births := 0
  memory _ _ := none
  blocked _ := none
  notified := 0

/-- A process has not terminated. -/
def World.Alive (world : World) (process : Process) : Prop :=
  world.holder process.pid = some process.birth

instance (world : World) (process : Process) : Decidable (world.Alive process) :=
  inferInstanceAs (Decidable (_ = _))

/-- What other processes do, at any time. -/
inductive Happening where
  /-- A process is born with a PID that is free. -/
  | spawn (pid : Nat)
  | terminate (process : Process)
  /-- A process makes a call, and is blocked in it when the filter says so. -/
  | call (process : Process) (data : SeccompData)
  /-- A signal handler interrupts a blocked call. -/
  | interrupt (id : Nat)
  /-- The memory of a process is rewritten. -/
  | rewrite (process : Process) (memory : Nat → Option UInt8)

/-- What the world is like after a happening, where it can happen. -/
def World.happen (filter : List ClassicBpf.SockFilter) (world : World) :
    Happening → Option World
  | .spawn pid =>
    if world.holder pid = none then
      some { world with
        holder := Function.update world.holder pid (some world.births)
        births := world.births + 1 }
    else none
  | .terminate process =>
    if world.Alive process then
      some { world with
        holder := Function.update world.holder process.pid none
        blocked := fun id => (world.blocked id).filter fun call => call.process ≠ process }
    else none
  | .call process data =>
    if world.Alive process ∧ verdict filter data = some .userNotif then
      some { world with
        blocked := Function.update world.blocked world.notified (some ⟨process, data, false⟩)
        notified := world.notified + 1 }
    else none
  | .interrupt id => some { world with blocked := Function.update world.blocked id none }
  | .rewrite process memory =>
    some { world with memory := Function.update world.memory process memory }

/-- `SECCOMP_IOCTL_NOTIF_RECV`, for a call that the kernel picks. -/
def World.recv (world : World) (id : Nat) : Option (World × Process × SeccompNotif) :=
  match world.blocked id with
  | none => none
  | some call =>
    if call.received then none
    else some ({ world with
      blocked := Function.update world.blocked id (some { call with received := true }) },
      call.process, ⟨id, call.process.pid, call.data⟩)

/-- `SECCOMP_IOCTL_NOTIF_ID_VALID`, as `cookieIsValid` asks for it. -/
def World.cookieIsValid (world : World) (id : Nat) : Bool :=
  match world.blocked id with
  | none => false
  | some call => call.received

/-- `SECCOMP_IOCTL_NOTIF_SEND`, which ends the call, or fails when the ID is not valid. -/
def World.send (world : World) (id : Nat) : World :=
  if world.cookieIsValid id then { world with blocked := Function.update world.blocked id none }
  else world

/-- `open` of `/proc/PID/mem`, which stands for the process that has the PID at that time. -/
def World.openMem (world : World) (pid : Nat) : Option Process :=
  (world.holder pid).map fun birth => ⟨pid, birth⟩

/-- A byte read through such a descriptor, as long as the process lives. -/
def World.readMem (world : World) (process : Process) (address : Nat) : Option UInt8 :=
  if world.Alive process then world.memory process address else none

end SysProg.Seccomp
