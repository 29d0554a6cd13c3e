import SysProg.Lib.Machine

/-! A child in a new user namespace that waits for its ID maps before it execs. -/

namespace SysProg.Namespaces.UsernsChildExec

/-- The kind of an ID map, in the order in which `update_child_maps` writes them. -/
inductive IdMap where
  | uid
  | gid
  | projid
  deriving DecidableEq, Repr

/-- A string that C keeps in memory, up to its null byte. -/
abbrev CString := List Char

/-- The command-line options that say what the parent writes and what the child does. -/
structure CmdOptions where
  createRootMappings : Bool
  denySetgroups : Bool
  uidMap : Option CString
  gidMap : Option CString
  projidMap : Option CString
  /-- How many repeatable options the child performs. -/
  optCnt : Nat
  deriving Repr

/-- The options, and the process identifiers the parent finds. -/
structure Setup where
  opts : CmdOptions
  childPid : Nat
  /-- `getuid()`. -/
  uid : Nat
  /-- `getgid()`. -/
  gid : Nat
  deriving Repr

/-- The name of a map below `/proc/PID`. -/
def IdMap.fileName : IdMap → String
  | .uid => "uid_map"
  | .gid => "gid_map"
  | .projid => "projid_map"

/-- `snprintf(map_path, PATH_MAX, "/proc/%ld/uid_map", (long) child_pid)`. -/
def procPath (setup : Setup) (fileName : String) : String :=
  "/proc/" ++ toString setup.childPid ++ "/" ++ fileName

/-- `snprintf(map_buf, MAP_BUF_SIZE, "0 %ld 1", (long) getuid())`. -/
def rootMapping (id : Nat) : CString :=
  ['0', ' '] ++ Nat.toDigits 10 id ++ [' ', '1']

/-- The mapping string that is written for a kind of ID, when one is requested. -/
def Setup.mapping (setup : Setup) : IdMap → Option CString
  | .uid =>
    -- `-r` makes its own strings for users and groups, whatever else is given.
    if setup.opts.createRootMappings then some (rootMapping setup.uid) else setup.opts.uidMap
  | .gid =>
    if setup.opts.createRootMappings then some (rootMapping setup.gid) else setup.opts.gidMap
  | .projid => setup.opts.projidMap

/-- `update_map` replaces the commas of a mapping with newlines before it writes. -/
def commasToNewlines (mapping : CString) : CString :=
  mapping.map fun ch => if ch = ',' then '\n' else ch

/-- Where the parent stands after `clone`. -/
inductive ParentPc where
  /-- `open(map_file, O_RDWR)` in `update_map`. -/
  | openMap (map : IdMap)
  /-- `write(fd, mapping, map_len)` in `update_map`. -/
  | writeMap (map : IdMap)
  /-- `open(setgroups_path, O_RDWR)` in `proc_setgroups_write`. -/
  | openSetgroups
  /-- `write(fd, str, strlen(str))` in `proc_setgroups_write`. -/
  | writeSetgroups
  /-- `close(pipe_fd[1])`. -/
  | closePipe
  /-- `waitpid(child_pid, NULL, 0)`. -/
  | waitpid
  /-- `exit`, which `errExit` calls after it has displayed its message. -/
  | exit (message : Option String)
  | exited
  deriving DecidableEq, Repr

/-- Where the child stands. -/
inductive ChildPc where
  /-- `close(pipe_fd[1])`. -/
  | closeWrite
  /-- `read(pipe_fd[0], &ch, 1)`. -/
  | read
  /-- `close(pipe_fd[0])`. -/
  | closeRead
  /-- The loop of `perform_repeatable_options`, about to perform this option. -/
  | perform (option : Nat)
  /-- `execvp(opts->argv[0], opts->argv)`. -/
  | execvp
  /-- The command runs. -/
  | command
  | exited
  deriving DecidableEq, Repr

/-- An attempt of the parent to write a file of the child. -/
structure Attempt where
  path : String
  contents : CString
  succeeded : Bool
  deriving DecidableEq, Repr

/-- The parent and the child, with the write end of the pipe between them. -/
structure State where
  parent : ParentPc
  child : ChildPc
  /-- The parent has its descriptor for the write end of the pipe. -/
  parentWrites : Bool
  /-- The child has its descriptor for the write end of the pipe. -/
  childWrites : Bool
  /-- What the parent has tried to write so far. -/
  attempts : List Attempt
  deriving DecidableEq, Repr

/-- How the kernel answers the system call made in a step. -/
inductive Answer where
  | ok
  /-- A `write` that has written this many bytes. -/
  | written (count : Nat)
  /-- A failure with `ENOENT`. -/
  | enoent
  /-- Any other failure. -/
  | error
  deriving DecidableEq, Repr

/-- The next thing to do once the project ID map is dealt with or not requested. -/
def afterGid (setup : Setup) : ParentPc :=
  if (setup.mapping .projid).isSome then .openMap .projid else .closePipe

/-- The next thing to do once the UID map is dealt with or not requested. -/
def afterUid (setup : Setup) : ParentPc :=
  if (setup.mapping .gid).isSome then
    if setup.opts.denySetgroups then .openSetgroups else .openMap .gid
  else afterGid setup

/-- Where `update_child_maps` goes on after a map has been written. -/
def afterMap (setup : Setup) : IdMap → ParentPc
  | .uid => afterUid setup
  | .gid => afterGid setup
  | .projid => .closePipe

/-- Both processes right after `clone`. -/
def initial (setup : Setup) : State where
  parent := if (setup.mapping .uid).isSome then .openMap .uid else afterUid setup
  child := .closeWrite
  parentWrites := true
  childWrites := true
  attempts := []

/-- The message of `errExit` when `update_map` has failed. -/
def updateMapMessage (map : IdMap) : String :=
  "update_map: " ++ map.fileName

/-- The parent goes on, and what it has tried to write is on record. -/
def State.attempted (state : State) (path : String) (contents : CString) (succeeded : Bool)
    (parent : ParentPc) : State :=
  { state with parent, attempts := state.attempts ++ [⟨path, contents, succeeded⟩] }

/-- The string that `update_child_maps` has written to the file `setgroups`. -/
def deny : CString :=
  ['d', 'e', 'n', 'y']

/-- One step of the parent, where a file that cannot be opened counts as not written. -/
def parentStep (setup : Setup) (state : State) (answer : Answer) : Option State :=
  match state.parent with
  | .openMap map =>
    let path := procPath setup map.fileName
    let contents := commasToNewlines ((setup.mapping map).getD [])
    if answer = .ok then some { state with parent := .writeMap map }
    else some (state.attempted path contents false (.exit (some (updateMapMessage map))))
  | .writeMap map =>
    let path := procPath setup map.fileName
    let contents := commasToNewlines ((setup.mapping map).getD [])
    -- Anything but a complete write is a failure.
    if answer = .written contents.length then
      some (state.attempted path contents true (afterMap setup map))
    else some (state.attempted path contents false (.exit (some (updateMapMessage map))))
  | .openSetgroups =>
    match answer with
    | .ok => some { state with parent := .writeSetgroups }
    -- On a system without this file there is nothing to deny.
    | .enoent => some { state with parent := .openMap .gid }
    | _ => some (state.attempted (procPath setup "setgroups") deny false
        (.exit (some "proc_setgroups_write")))
  | .writeSetgroups =>
    match answer with
    | .written _ =>
      some (state.attempted (procPath setup "setgroups") deny true (.openMap .gid))
    | _ => some (state.attempted (procPath setup "setgroups") deny false
        (.exit (some "proc_setgroups_write")))
  | .closePipe => some { state with parent := .waitpid, parentWrites := false }
  | .waitpid =>
    if answer = .error then some { state with parent := .exit (some "waitpid") }
    else if state.child = .exited then some { state with parent := .exit none }
    else none
  -- The kernel closes the descriptors of a process that exits.
  | .exit _ => some { state with parent := .exited, parentWrites := false }
  | .exited => none

/-- One step of the child. -/
def childStep (setup : Setup) (state : State) (answer : Answer) : Option State :=
  match state.child with
  | .closeWrite => some { state with child := .read, childWrites := false }
  | .read =>
    if answer = .error then some { state with child := .exited }
    -- Nobody writes into the pipe, so `read` blocks or sees its end.
    else if state.parentWrites ∨ state.childWrites then none
    else some { state with child := .closeRead }
  | .closeRead => some { state with child := .perform 0 }
  | .perform option =>
    if option < setup.opts.optCnt then
      if answer = .ok then some { state with child := .perform (option + 1) }
      else some { state with child := .exited }
    else some { state with child := .execvp }
  | .execvp => some { state with child := if answer = .ok then .command else .exited }
  | .command => some { state with child := .exited }
  | .exited => none

/-- Which of the two processes makes the next step. -/
inductive Process where
  | parent
  | child
  deriving DecidableEq, Repr

/-- The two processes, one step at a time, with the answer of the kernel to each step. -/
def usernsChildExec (setup : Setup) : Machine State (Process × Answer) where
  step
    | state, (.parent, answer) => parentStep setup state answer
    | state, (.child, answer) => childStep setup state answer

end SysProg.Namespaces.UsernsChildExec
