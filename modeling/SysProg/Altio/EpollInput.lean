import SysProg.Lib.Machine
import SysProg.Lib.Tally

/-! The program that waits with `epoll` for input from any of several FIFOs. -/

namespace SysProg.Altio.EpollInput

/-- Maximum bytes fetched by a single `read()`. -/
def maxBuf : Nat := 1000

/-- Maximum number of events to be returned from a single `epoll_wait()` call. -/
def maxEvents : Nat := 5

/-- A FIFO, and what is going to be written to it. -/
structure Fifo where
  buffer : List UInt8
  /-- What those who have it open will still write, unless nobody has it open for writing. -/
  writing : Option (List UInt8)
  /-- What others will write, each of whom opens it when nobody else has it open. -/
  later : List (List UInt8)
  deriving DecidableEq

/-- What `EPOLLIN` says: there are bytes to be read. -/
def Fifo.epollin (fifo : Fifo) : Bool := !fifo.buffer.isEmpty

/-- What `EPOLLHUP` says: nobody has the FIFO open for writing. -/
def Fifo.epollhup (fifo : Fifo) : Bool := fifo.writing.isNone

/-- A line of the output that tells what has been done. -/
inductive Line (fds : Nat) where
  | read (fd : Fin fds) (bytes : List UInt8)
  | closing (fd : Fin fds)
  deriving DecidableEq

/-- Where `main` is. -/
inductive Pc (fds : Nat) where
  /-- At the head of the loop. -/
  | waiting
  /-- At the next entry of `evlist`, each with a descriptor and `EPOLLIN`. -/
  | handling (evlist : List (Fin fds × Bool))
  | exited
  deriving DecidableEq

/-- The FIFOs, and the program with a descriptor for each argument. -/
structure State (fds fifos : Nat) where
  fifos : Fin fifos → Fifo
  isOpen : Fin fds → Bool
  numOpenFds : Int
  pc : Pc fds
  output : List (Line fds)

/-- What happens next. -/
inductive Action (fds fifos : Nat) where
  | write (index : Fin fifos) (count : Nat)
  /-- The last writer closes the FIFO. -/
  | hangUp (index : Fin fifos)
  | reopen (index : Fin fifos)
  /-- `epoll_wait` returns these descriptors. -/
  | wait (ready : List (Fin fds))
  /-- `epoll_wait` fails with `EINTR`. -/
  | interrupted
  | handle
  | exit
  deriving DecidableEq

variable {fds fifos : Nat}

/-- Whether the action is more than a signal that interrupts `epoll_wait`. -/
def Action.goesOn : Action fds fifos → Bool
  | .interrupted => false
  | _ => true

/-- All FIFOs have been opened and added to the interest list. -/
def initial (fds : Nat) (inputs : Fin fifos → List UInt8) (later : Fin fifos → List (List UInt8)) :
    State fds fifos where
  fifos index := ⟨[], some (inputs index), later index⟩
  isOpen _ := true
  numOpenFds := fds
  pc := .waiting
  output := []

/-- The state in which one of the FIFOs has changed. -/
def State.fifoAt (state : State fds fifos) (index : Fin fifos) (fifo : Fifo) : State fds fifos :=
  { state with fifos := Function.update state.fifos index fifo }

/-- The state after an entry of `evlist`, with a line of output. -/
def State.after (state : State fds fifos) (rest : List (Fin fds × Bool)) (line : Line fds) :
    State fds fifos :=
  { state with
    pc := if rest = [] then .waiting else .handling rest
    output := state.output ++ [line] }

/-- The FIFO is open for reading. -/
def State.HasReader (file : Fin fds → Fin fifos) (state : State fds fifos) (index : Fin fifos) :
    Prop :=
  ∃ fd, file fd = index ∧ state.isOpen fd = true

instance (file : Fin fds → Fin fifos) (state : State fds fifos) (index : Fin fifos) :
    Decidable (state.HasReader file index) :=
  inferInstanceAs (Decidable (∃ fd, file fd = index ∧ state.isOpen fd = true))

/-- The loop over the entries of `evlist`. -/
def handleStep (file : Fin fds → Fin fifos) (state : State fds fifos) :
    Option (State fds fifos) :=
  match state.pc with
  | .handling ((fd, true) :: rest) =>
    let fifo := state.fifos (file fd)
    -- `read` blocks when there is nothing to read, but someone may still write.
    if fifo.buffer = [] ∧ fifo.writing.isSome then none
    else
      let fifo_ := { fifo with buffer := fifo.buffer.drop maxBuf }
      some ((state.fifoAt (file fd) fifo_).after rest (.read fd (fifo.buffer.take maxBuf)))
  | .handling ((fd, false) :: rest) =>
    some ({ state with
      isOpen := Function.update state.isOpen fd false
      numOpenFds := state.numOpenFds - 1 }.after rest (.closing fd))
  | _ => none

/-- One step, with the FIFO of each descriptor, and room for so many bytes in each FIFO. -/
def step (file : Fin fds → Fin fifos) (room : Nat) (state : State fds fifos) :
    Action fds fifos → Option (State fds fifos)
  | .write index count =>
    let fifo := state.fifos index
    match fifo.writing with
    | some bytes =>
      if 0 < count ∧ count ≤ bytes.length ∧ fifo.buffer.length + count ≤ room ∧
          state.HasReader file index then
        some (state.fifoAt index { fifo with
          buffer := fifo.buffer ++ bytes.take count
          writing := some (bytes.drop count) })
      else none
    | none => none
  | .hangUp index =>
    let fifo := state.fifos index
    if fifo.writing = some [] then some (state.fifoAt index { fifo with writing := none })
    else none
  | .reopen index =>
    let fifo := state.fifos index
    match fifo.writing, fifo.later with
    | none, bytes :: later =>
      -- Without a reader, `open` blocks.
      if state.HasReader file index then
        some (state.fifoAt index { fifo with writing := some bytes, later })
      else none
    | _, _ => none
  | .wait ready =>
    if state.pc = .waiting ∧ 0 < state.numOpenFds ∧ ready ≠ [] ∧ ready.length ≤ maxEvents ∧
        ready.Nodup ∧ ∀ fd ∈ ready, state.isOpen fd = true ∧
          ((state.fifos (file fd)).epollin || (state.fifos (file fd)).epollhup) = true then
      some { state with
        pc := .handling (ready.map fun fd => (fd, (state.fifos (file fd)).epollin)) }
    else none
  | .interrupted => if state.pc = .waiting ∧ 0 < state.numOpenFds then some state else none
  | .handle => handleStep file state
  | .exit =>
    if state.pc = .waiting ∧ ¬ 0 < state.numOpenFds then some { state with pc := .exited } else none

/-- The program and those who write to the FIFOs. -/
def machine (file : Fin fds → Fin fifos) (room : Nat) :
    Machine (State fds fifos) (Action fds fifos) where
  step := step file room

/-- What has been read from a FIFO, by any of its descriptors. -/
def State.taken (file : Fin fds → Fin fifos) (state : State fds fifos) (index : Fin fifos) :
    List UInt8 :=
  state.output.flatMap fun
    | .read fd bytes => if file fd = index then bytes else []
    | .closing _ => []

end SysProg.Altio.EpollInput
