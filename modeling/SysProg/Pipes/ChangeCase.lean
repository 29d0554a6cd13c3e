import SysProg.Lib.Machine

/-! A parent sends text to its child through a pipe, and gets it back in upper case. -/

namespace SysProg.Pipes.ChangeCase

/-- How a pipe works: a write of at most so many bytes is not divided. -/
structure PipeLimits where
  /-- `PIPE_BUF`. -/
  pipeBuf : Nat
  capacity : Nat
  fits : pipeBuf ≤ capacity

/-- `toupper`, in the locale that a program starts with. -/
def toupper (byte : UInt8) : UInt8 :=
  if 97 ≤ byte ∧ byte ≤ 122 then byte - 32 else byte

/-- Where the parent stands. -/
inductive Parent where
  /-- `read(STDIN_FILENO, buf, BUF_SIZE)`. -/
  | readStdin
  /-- `write(outbound[1], buf, cnt)`, with what is still to be written. -/
  | write (rest : List UInt8)
  /-- `read(inbound[0], buf, BUF_SIZE)`. -/
  | read
  /-- `write(STDOUT_FILENO, buf, cnt)`. -/
  | print (buf : List UInt8)
  | exited
  deriving DecidableEq, Repr

/-- Where the child stands. -/
inductive Child where
  /-- `read(outbound[0], buf, BUF_SIZE)`. -/
  | read
  /-- `write(inbound[1], buf, cnt)`, with what is still to be written. -/
  | write (rest : List UInt8)
  | exited
  /-- Nobody can read what it writes, so that it gets `SIGPIPE`. -/
  | killed
  deriving DecidableEq, Repr

/-- Both processes, both pipes, and the standard input and output. -/
structure State where
  parent : Parent
  child : Child
  stdin : List UInt8
  outbound : List UInt8
  inbound : List UInt8
  stdout : List UInt8
  deriving DecidableEq, Repr

/-- The child has been created. -/
def initial (text : List UInt8) : State :=
  ⟨.readStdin, .read, text, [], [], []⟩

/-- Writes to a pipe, all at once or so many bytes, and returns what is still to be written. -/
def writePipe (limits : PipeLimits) (pipe rest : List UInt8) (count : Nat) :
    Option (List UInt8 × List UInt8) :=
  if rest.length ≤ limits.pipeBuf then
    if pipe.length + rest.length ≤ limits.capacity then some (pipe ++ rest, []) else none
  else if 0 < count ∧ count ≤ rest.length ∧ pipe.length + count ≤ limits.capacity then
    some (pipe ++ rest.take count, rest.drop count)
  else none

/-- One step of the parent, which may get fewer bytes from its standard input than it asks for. -/
def parentStep (bufSize : Nat) (limits : PipeLimits) (state : State) (count : Nat) :
    Option State :=
  match state.parent with
  | .readStdin =>
    if state.stdin = [] then some { state with parent := .exited }
    else if 0 < count ∧ count ≤ bufSize ∧ count ≤ state.stdin.length then
      some { state with
        parent := .write (state.stdin.take count)
        stdin := state.stdin.drop count }
    else none
  | .write rest =>
    if state.child = .exited ∨ state.child = .killed then none
    else (writePipe limits state.outbound rest count).map fun (outbound, rest) =>
      { state with outbound, parent := if rest = [] then .read else .write rest }
  | .read =>
    if state.inbound ≠ [] then
      some { state with
        parent := .print (state.inbound.take bufSize)
        inbound := state.inbound.drop bufSize }
    -- The end of the file is seen when the child has closed its end.
    else if state.child = .exited ∨ state.child = .killed then
      some { state with parent := .readStdin }
    else none
  | .print buf => some { state with parent := .readStdin, stdout := state.stdout ++ buf }
  | .exited => none

/-- One step of the child. -/
def childStep (bufSize : Nat) (limits : PipeLimits) (state : State) (count : Nat) :
    Option State :=
  match state.child with
  | .read =>
    if state.outbound ≠ [] then
      some { state with
        child := .write ((state.outbound.take bufSize).map toupper)
        outbound := state.outbound.drop bufSize }
    else if state.parent = .exited then some { state with child := .exited }
    else none
  | .write rest =>
    if state.parent = .exited then some { state with child := .killed }
    else (writePipe limits state.inbound rest count).map fun (inbound, rest) =>
      { state with inbound, child := if rest = [] then .read else .write rest }
  | .exited | .killed => none

/-- What happens next, where a read or write may be of so many bytes. -/
inductive Action where
  | parent (count : Nat)
  | child (count : Nat)
  deriving DecidableEq, Repr

/-- Both processes, which take turns in any order. -/
def machine (bufSize : Nat) (limits : PipeLimits) : Machine State Action where
  step state action :=
    match action with
    | .parent count => parentStep bufSize limits state count
    | .child count => childStep bufSize limits state count

end SysProg.Pipes.ChangeCase
