import SysProg.Lib.Machine

/-! An init program that runs commands, while the handler of a signal reaps its children. -/

namespace SysProg.Namespaces.SimpleInit

/-- What has become of a child. -/
inductive Child where
  /-- Running or stopped, and whether `waitpid` has yet to report that it was stopped or goes on. -/
  | alive (unreported : Bool)
  /-- Terminated, and not waited on yet. -/
  | zombie
  | reaped
  deriving DecidableEq, Repr

/-- `waitpid` with `WUNTRACED | WCONTINUED` finds such a child. -/
def Child.waitable : Child → Bool
  | .alive unreported => unreported
  | .zombie => true
  | .reaped => false

/-- Where the loop of `main` stands. -/
inductive MainPc where
  /-- `fgets(cmd, CMD_SIZE, stdin)`. -/
  | fgets
  /-- `fork()`, for a command that is not empty. -/
  | fork
  /-- After the fork, with the message about the child. -/
  | created
  /-- Blocked in `pause()`. -/
  | pause
  /-- `tcsetpgrp(STDIN_FILENO, getpgrp())`. -/
  | tcsetpgrp
  /-- The loop has ended. -/
  | exits
  deriving DecidableEq, Repr

/-- The init process and its children, which are numbered as they come. -/
structure State where
  main : MainPc
  /-- `child_handler` has interrupted `main`. -/
  handling : Bool
  children : List Child
  /-- The child that was started last. -/
  started : Option Nat
  /-- `SIGCHLD` is pending, which it is at most once. -/
  pending : Bool
  deriving DecidableEq, Repr

/-- The handler is established, and the loop about to begin. -/
def initial : State where
  main := .fgets
  handling := false
  children := []
  started := none
  pending := false

/-- The line without its trailing newline. -/
def stripNewline (line : List Char) : List Char :=
  if line.getLast? = some '\n' then line.dropLast else line

/-- What happens next. -/
inductive Action where
  /-- `fgets` reads this line, or nothing at the end of the file. -/
  | reads (line : Option (List Char))
  | forks
  | forkFails
  /-- `main` goes on until it is blocked. -/
  | pauses
  | tcsetpgrp
  | tcsetpgrpFails
  /-- The signal is delivered. -/
  | delivers
  /-- `waitpid` in the handler finds this child. -/
  | waits (index : Nat)
  /-- `waitpid` in the handler finds no child, and the handler returns. -/
  | returns
  /-- A child is stopped or goes on, of which `SA_NOCLDSTOP` sends no signal. -/
  | changes (index : Nat)
  | terminates (index : Nat)
  /-- The process becomes the parent of an orphan. -/
  | adopts
  /-- `SIGCHLD` is sent for some other reason. -/
  | raises
  deriving DecidableEq, Repr

/-- Something becomes of a child. -/
def State.childBecomes (state : State) (index : Nat) (child : Child) : State :=
  { state with children := state.children.set index child }

/-- What `waitpid` makes of a child that it finds. -/
def Child.waited : Child → Child
  | .alive _ => .alive false
  | .zombie | .reaped => .reaped

/-- One step of `main`, which takes none while the handler runs. -/
def mainStep (state : State) : Action → Option State
  | .reads line =>
    if state.main = .fgets then
      match line with
      | none => some { state with main := .exits }
      | some line =>
        -- Empty commands are ignored.
        some { state with main := if stripNewline line = [] then .fgets else .fork }
    else none
  | .forks =>
    if state.main = .fork then
      some { state with
        main := .created
        children := state.children ++ [.alive false]
        started := some state.children.length }
    else none
  | .forkFails => if state.main = .fork then some { state with main := .exits } else none
  | .pauses => if state.main = .created then some { state with main := .pause } else none
  | .tcsetpgrp => if state.main = .tcsetpgrp then some { state with main := .fgets } else none
  | .tcsetpgrpFails => if state.main = .tcsetpgrp then some { state with main := .exits } else none
  | _ => none

/-- One step of `child_handler`. -/
def handlerStep (state : State) : Action → Option State
  | .waits index =>
    match state.children[index]? with
    | some child =>
      if child.waitable then some (state.childBecomes index child.waited) else none
    | none => none
  | .returns =>
    if state.children.any Child.waitable then none
    else some { state with
      handling := false
      -- The handler interrupts `pause`, whereas `fgets` is restarted.
      main := if state.main = .pause then .tcsetpgrp else state.main }
  | _ => none

/-- What the children and the signal do by themselves. -/
def outsideStep (state : State) : Action → Option State
  | .delivers =>
    if state.pending ∧ ¬ state.handling then some { state with handling := true, pending := false }
    else none
  | .changes index =>
    match state.children[index]? with
    | some (.alive _) => some (state.childBecomes index (.alive true))
    | _ => none
  | .terminates index =>
    match state.children[index]? with
    | some (.alive _) => some { state.childBecomes index .zombie with pending := true }
    | _ => none
  | .adopts => some { state with children := state.children ++ [.alive false] }
  | .raises => some { state with pending := true }
  | _ => none

/-- One step, of which there are none after the program has left its loop. -/
def step (state : State) (action : Action) : Option State :=
  if state.main = .exits then none
  else
    (outsideStep state action).orElse fun _ =>
      if state.handling then handlerStep state action else mainStep state action

/-- The init process and its children, one step at a time. -/
def simpleInit : Machine State Action :=
  ⟨step⟩

end SysProg.Namespaces.SimpleInit
