import Mathlib.Logic.Function.Basic
import SysProg.Lib.Machine

/-! A handler that writes to a pipe, so that `select` waits for descriptors and a signal at once. -/

namespace SysProg.Altio.SelfPipe

/-- `EINTR`. -/
def eintr : Nat := 4

/-- `EAGAIN`. -/
def eagain : Nat := 11

/-- `O_NONBLOCK`. -/
def oNonblock : Nat := 2 ^ 11

/-- The status flags make reading and writing fail where they would block. -/
def nonblocking (flags : Nat) : Bool :=
  flags.testBit 11

/-- What the program is started with, and what the system gives it. -/
structure Setup where
  /-- The descriptors of the command line. -/
  fds : List Nat
  /-- `pto` is not `NULL`. -/
  timeout : Bool
  /-- `pfd[0]`. -/
  readEnd : Nat
  /-- How many bytes the pipe holds. -/
  capacity : Nat
  positive : 0 < capacity

/-- `nfds`, which the read end of the pipe adjusts. -/
def Setup.nfds (setup : Setup) : Nat :=
  max (setup.fds.foldl (fun nfds fd => if nfds ≤ fd then fd + 1 else nfds) 0) (setup.readEnd + 1)

/-- Where `handler` stands. -/
inductive HandlerPc where
  /-- `savedErrno = errno`. -/
  | save
  /-- `write(pfd[1], "x", 1)`. -/
  | write
  /-- The test of the result and of `errno`. -/
  | test (failed : Bool)
  /-- `errno = savedErrno`. -/
  | restore
  | returns
  deriving DecidableEq, Repr

/-- The handler as it runs. -/
structure Handler where
  pc : HandlerPc
  savedErrno : Nat
  /-- The `errno` that the signal has interrupted. -/
  found : Nat
  deriving DecidableEq, Repr

/-- Where `main` stands, from the moment it has built `readfds` for the command line. -/
inductive MainPc where
  /-- `pipe(pfd)`. -/
  | pipe
  /-- `fcntl(pfd[0], F_GETFL)`. -/
  | getRead
  /-- `fcntl(pfd[0], F_SETFL, flags)`. -/
  | setRead (flags : Nat)
  /-- `fcntl(pfd[1], F_GETFL)`. -/
  | getWrite
  /-- `fcntl(pfd[1], F_SETFL, flags)`. -/
  | setWrite (flags : Nat)
  /-- `sigaction(SIGINT, &sa, NULL)`. -/
  | sigaction
  /-- `select(nfds, &readfds, NULL, NULL, pto)`. -/
  | select
  /-- Blocked in that call. -/
  | blocked
  /-- The tests of `ready` and `errno` after that call. -/
  | testSelect (ready : Int)
  /-- `FD_ISSET(pfd[0], &readfds)`. -/
  | isset
  /-- `read(pfd[0], &ch, 1)`. -/
  | read
  /-- `errno == EAGAIN`, when that call has failed. -/
  | testRead
  /-- The program goes on to display the results. -/
  | report
  /-- An error has ended the program. -/
  | errExit
  deriving DecidableEq, Repr

/-- The program and its pipe. -/
structure State where
  main : MainPc
  /-- The handler, if it has interrupted `main`. -/
  handler : Option Handler
  errno : Nat
  /-- The number of bytes in the pipe. -/
  pipe : Nat
  readFlags : Nat
  writeFlags : Nat
  readfds : Nat → Bool
  /-- The other descriptors that have input. -/
  inputs : Nat → Bool
  /-- The number of deliveries that have been handled. -/
  handled : Nat
  /-- How many of them had been when `select` returned. -/
  handledBefore : Nat
  /-- The number of bytes that the handler has written since `main` last read. -/
  late : Nat

/-- `readfds` has been built for the command line. -/
def initial (setup : Setup) : State where
  main := .pipe
  handler := none
  errno := 0
  pipe := 0
  readFlags := 0
  writeFlags := 0
  readfds fd := setup.fds.contains fd
  inputs _ := false
  handled := 0
  handledBefore := 0
  late := 0

variable (setup : Setup)

/-- A descriptor has input. -/
def State.hasInput (state : State) (fd : Nat) : Bool :=
  if fd = setup.readEnd then decide (0 < state.pipe) else state.inputs fd

/-- The set that `select` returns. -/
def State.readyfds (state : State) (fd : Nat) : Bool :=
  decide (fd < setup.nfds) && state.readfds fd && state.hasInput setup fd

/-- The number of descriptors in that set. -/
def State.ready (state : State) : Nat :=
  (List.range setup.nfds).countP (state.readyfds setup)

/-- `select` returns what is ready. -/
def State.selects (state : State) : State :=
  { state with
    main := .testSelect (state.ready setup)
    readfds := state.readyfds setup
    handledBefore := state.handled }

/-- `select` fails, and leaves the set alone. -/
def State.selectFails (state : State) (errno : Nat) : State :=
  { state with main := .testSelect (-1), errno }

/-- One step of `handler`. -/
def handlerStep (state : State) (handler : Handler) : Option State :=
  match handler.pc with
  | .save =>
    some { state with handler := some { handler with pc := .write, savedErrno := state.errno } }
  -- A byte goes into the pipe if there is room; a full pipe blocks without the flag.
  | .write =>
    if state.pipe < setup.capacity then
      some { state with
        handler := some { handler with pc := .test false }
        pipe := state.pipe + 1
        late := state.late + 1 }
    else if nonblocking state.writeFlags then
      some { state with handler := some { handler with pc := .test true }, errno := eagain }
    else none
  -- `errExit` is called for any failure but `EAGAIN`.
  | .test failed =>
    if failed ∧ state.errno ≠ eagain then some { state with handler := none, main := .errExit }
    else some { state with handler := some { handler with pc := .restore } }
  | .restore =>
    some { state with
      handler := some { handler with pc := .returns }, errno := handler.savedErrno }
  | .returns =>
    let returned := { state with handler := none, handled := state.handled + 1 }
    -- In spite of `SA_RESTART`, `select` is interrupted.
    some (if state.main = .blocked then returned.selectFails eintr else returned)

/-- One step of `main`. -/
def mainStep (state : State) : Option State :=
  match state.main with
  | .pipe =>
    -- The access modes of the two ends are `O_RDONLY` and `O_WRONLY`.
    some { state with
      main := .getRead
      readFlags := 0
      writeFlags := 1
      readfds := Function.update state.readfds setup.readEnd true }
  | .getRead => some { state with main := .setRead (state.readFlags ||| oNonblock) }
  | .setRead flags => some { state with main := .getWrite, readFlags := flags }
  | .getWrite => some { state with main := .setWrite (state.writeFlags ||| oNonblock) }
  | .setWrite flags => some { state with main := .sigaction, writeFlags := flags }
  | .sigaction => some { state with main := .select }
  -- The call returns at once if something is ready.
  | .select =>
    some (if state.ready setup = 0 then { state with main := .blocked } else state.selects setup)
  | .blocked => if state.ready setup = 0 then none else some (state.selects setup)
  -- The loop goes on after `EINTR`, and ends the program after another error.
  | .testSelect ready =>
    some { state with
      main := if ready = -1 then if state.errno = eintr then .select else .errExit else .isset }
  | .isset => some { state with main := if state.readfds setup.readEnd then .read else .report }
  -- An empty pipe makes the call fail, or block without the flag.
  | .read =>
    if 0 < state.pipe then some { state with pipe := state.pipe - 1, late := 0 }
    else if nonblocking state.readFlags then
      some { state with main := .testRead, errno := eagain, late := 0 }
    else none
  | .testRead => some { state with main := if state.errno = eagain then .report else .errExit }
  | .report | .errExit => none

/-- The handler has been established. -/
def MainPc.established : MainPc → Bool
  | .select | .blocked | .testSelect _ | .isset | .read | .testRead | .report => true
  | _ => false

/-- The call is one that may fail, and the program with it. -/
def MainPc.sets : MainPc → Bool
  | .pipe | .getRead | .setRead _ | .getWrite | .setWrite _ | .sigaction => true
  | _ => false

/-- What happens next. -/
inductive Action where
  /-- The program goes on, in its handler if that runs. -/
  | goesOn
  /-- `SIGINT` is delivered. -/
  | delivers
  /-- A call before the loop fails. -/
  | fails
  /-- `select` fails for some reason. -/
  | selectFails (errno : Nat)
  /-- The time of `select` is over. -/
  | timesOut
  /-- A descriptor of the command line gets some input, or has none any more. -/
  | changes (fd : Nat) (input : Bool)
  deriving DecidableEq, Repr

/-- One step. -/
def step (state : State) : Action → Option State
  | .goesOn =>
    match state.handler with
    | some handler => handlerStep setup state handler
    | none => mainStep setup state
  | .delivers =>
    -- The signal is blocked while its handler runs.
    if state.main.established ∧ state.handler = none then
      some { state with handler := some ⟨.save, 0, state.errno⟩ }
    else none
  | .fails =>
    if state.main.sets ∧ state.handler = none then some { state with main := .errExit } else none
  | .selectFails errno =>
    if (state.main = .select ∨ state.main = .blocked) ∧ state.handler = none then
      some (state.selectFails errno)
    else none
  | .timesOut =>
    -- What is ready at that moment is returned all the same.
    if state.main = .blocked ∧ state.handler = none ∧ setup.timeout = true then
      some (state.selects setup)
    else none
  -- This is what the rest of the system does.
  | .changes fd input => some { state with inputs := Function.update state.inputs fd input }

/-- The program and what happens to it, one step at a time. -/
def selfPipe : Machine State Action :=
  ⟨step setup⟩

end SysProg.Altio.SelfPipe
