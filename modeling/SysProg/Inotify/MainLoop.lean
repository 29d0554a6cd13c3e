import SysProg.Inotify.Checks
import SysProg.Lib.Decimal
import SysProg.Lib.Machine

/-! The main loop, which waits for events and for commands from the keyboard at once. -/

namespace SysProg.Inotify

/-- `STDIN_FILENO`. -/
def stdinFileno : Nat := 0

/-- The number that a new descriptor gets, where these are taken. -/
def lowestFree (taken : List Nat) : Nat :=
  ((List.range (taken.length + 1)).find? fun fd => fd ∉ taken).getD 0

/-- The commands, by their first character. -/
inductive Command where
  /-- `a`: adds or refreshes a subtree. -/
  | add
  /-- `c` or `C`: checks that all cached pathnames exist. -/
  | check
  /-- `l`: lists the entries of the cache. -/
  | list
  | quit
  /-- `v`: sets or toggles the verbose level. -/
  | verbose
  /-- `d`: toggles the dumping of the cache. -/
  | dump
  /-- `x`: toggles the checking of the cache. -/
  | toggleCheck
  /-- `w`: writes the directory list to a file. -/
  | write
  /-- `z`: zaps a subtree. -/
  | zap
  /-- `0`: rebuilds the cache. -/
  | rebuild
  | unrecognized
  deriving DecidableEq, Repr

/-- The command of a character. -/
def Command.ofByte : UInt8 → Command
  | 97 => .add
  | 99 | 67 => .check
  | 108 => .list
  | 113 => .quit
  | 118 => .verbose
  | 100 => .dump
  | 120 => .toggleCheck
  | 119 => .write
  | 122 => .zap
  | 48 => .rebuild
  | _ => .unrecognized

/-- `MAX_LINE`. -/
def maxLine : Nat := 100

/-- What `sscanf(line, "%c %s\n", &cmd, arg)` stores, where `arg` may be left as it was. -/
def scanCommand : List UInt8 → Option (Command × Option (List UInt8))
  | [] => none
  | cmd :: rest =>
    let arg := (rest.dropWhile Decimal.isSpace).takeWhile fun c => !Decimal.isSpace c
    some (Command.ofByte cmd, if arg = [] then none else some arg)

/-- What the system answers while a command is executed. -/
structure Answers where
  visits : List UInt8 → List Visit
  rmWatch : Int → Bool
  lstat : List UInt8 → Option Stat
  /-- Whether `fopen` succeeds. -/
  fopen : List UInt8 → Bool
  /-- Whether `inotify_init` succeeds. -/
  inotifyInit : Bool

/-- The program with its descriptors, and what is there to be read from them. -/
structure Session where
  program : Program
  verboseMask : Int
  dumpCache : Bool
  checkCache : Bool
  /-- The number of the inotify descriptor. -/
  inotifyFd : Nat
  /-- How many events are queued for that descriptor. -/
  queued : Nat
  /-- What has been typed and has not been read, one line after the other. -/
  typed : List (List UInt8)

/-- `reinitialize(-1)`, which gets a new inotify instance, whose queue is empty. -/
def Session.reinitialize (session : Session) (taken : List Nat) (answers : Answers) :
    Except Exit Session :=
  if !answers.inotifyInit then .error .failure
  else do
    let roots := session.program.rootDirPaths.filterMap id
    let cache ← Inotify.reinitialize (roots.flatMap answers.visits)
    return { session with
      program := { session.program with
        cache := cache, inotifyFd := session.program.inotifyFd + 1 }
      inotifyFd := lowestFree taken
      queued := 0 }

/-- The switch of `executeCommand`. -/
def Session.execute (session : Session) (taken : List Nat) (answers : Answers) :
    Command → Option (List UInt8) → Except Exit Session
  | .add, some arg => do
    let (_, cache) := zapSubtree answers.rmWatch arg session.program.cache
    let cache ← watchSubtree cache (answers.visits arg)
    return { session with program := { session.program with cache := cache } }
  | .check, _ => do
    let _ ← (checkAllCachedPathnamesExist answers.lstat session.program.cache).result
    return session
  | .quit, _ => .error .success
  | .verbose, some arg => .ok { session with verboseMask := Decimal.readInt arg }
  | .verbose, none =>
    .ok { session with verboseMask := if session.verboseMask = 0 then 1 else 0 }
  | .dump, _ => .ok { session with dumpCache := !session.dumpCache }
  | .toggleCheck, _ => .ok { session with checkCache := !session.checkCache }
  | .write, some arg =>
    -- The null pointer for a file that cannot be opened is used all the same.
    if answers.fopen arg then .ok session else .error .undefined
  | .zap, some arg =>
    let (_, cache) := zapSubtree answers.rmWatch arg session.program.cache
    .ok { session with program := { session.program with cache := cache } }
  -- `close(*inotifyFd)` makes its number free.
  | .rebuild, _ => session.reinitialize taken answers
  | .list, _ | .unrecognized, _ => .ok session
  -- Without an argument, the buffer for it is used as it is.
  | .add, none | .write, none | .zap, none => .error .undefined

/-- The line that one `read` brings, and what is left to be read. -/
def readStdin : List (List UInt8) → List UInt8 × List (List UInt8)
  | [] => ([], [])
  | line :: rest =>
    if line.length ≤ maxLine then (line, rest)
    else (line.take maxLine, line.drop maxLine :: rest)

/-- The line as a string, whose last byte is replaced by the terminating null byte. -/
def commandLine (line : List UInt8) : List UInt8 :=
  line.dropLast.takeWhile fun c => c ≠ 0

/-- `executeCommand`. -/
def Session.executeCommand (session : Session) (taken : List Nat) (answers : Answers) :
    Except Exit Session :=
  let line := (readStdin session.typed).1
  let session := { session with typed := (readStdin session.typed).2 }
  -- End-of-file
  if line = [] then .error .failure
  else match scanCommand (commandLine line) with
    | none => .ok session
    | some (cmd, arg) => session.execute taken answers cmd arg

/-- Where `main` stands in its loop. -/
inductive MainPc where
  | select
  /-- `FD_ISSET(STDIN_FILENO, &rfds)`. -/
  | testStdin (rfds : List Nat)
  /-- `FD_ISSET(inotifyFd, &rfds)`. -/
  | testInotify (rfds : List Nat)
  /-- `processInotifyEvents` has been entered, and is going to read from the descriptor. -/
  | processInotifyEvents
  | exited (exit : Exit)
  deriving DecidableEq

/-- The program in its main loop. -/
structure MainState where
  pc : MainPc
  session : Session

/-- What can happen. -/
inductive MainAction where
  /-- A line is typed, which is empty for end-of-file. -/
  | key (line : List UInt8)
  /-- An event is queued. -/
  | event
  /-- `select` returns what is ready. -/
  | select
  /-- `select` returns -1. -/
  | selectFails
  /-- `FD_ISSET` for the keyboard, and `executeCommand` if that is ready. -/
  | testStdin (answers : Answers)
  /-- `FD_ISSET` for the inotify descriptor. -/
  | testInotify
  /-- `processInotifyEvents` reads and handles events, and leaves so many queued. -/
  | process (world : World) (fuel : Nat) (buf : Memory) (left : Nat)

/-- The set that `select` returns. -/
def Session.rfds (session : Session) : List Nat :=
  (if session.typed = [] then [] else [stdinFileno]) ++
    if session.queued = 0 then [] else [session.inotifyFd]

/-- The session after a call of `processInotifyEvents`, which may have replaced the descriptor. -/
def Session.processed (session : Session) (taken : List Nat) (program : Program) (left : Nat) :
    Session :=
  { session with
    program := program
    inotifyFd :=
      if program.inotifyFd = session.program.inotifyFd then session.inotifyFd
      else lowestFree taken
    queued := left }

/-- The loop of `main`, where these numbers are taken by other descriptors. -/
def mainStep (opts : Options) (taken : List Nat) (state : MainState) : MainAction → Option MainState
  | .key line =>
    some { state with session := { state.session with typed := state.session.typed ++ [line] } }
  | .event =>
    some { state with session := { state.session with queued := state.session.queued + 1 } }
  | .select =>
    match state.pc, state.session.rfds with
    | .select, fd :: rfds => some { state with pc := .testStdin (fd :: rfds) }
    | _, _ => none
  | .selectFails =>
    match state.pc with
    | .select => some { state with pc := .exited .failure }
    | _ => none
  | .testStdin answers =>
    match state.pc with
    | .testStdin rfds =>
      if stdinFileno ∈ rfds then
        match state.session.executeCommand taken answers with
        | .ok session => some ⟨.testInotify rfds, session⟩
        | .error exit => some { state with pc := .exited exit }
      else some { state with pc := .testInotify rfds }
    | _ => none
  | .testInotify =>
    match state.pc with
    | .testInotify rfds =>
      some { state with
        pc := if state.session.inotifyFd ∈ rfds then .processInotifyEvents else .select }
    | _ => none
  | .process world fuel buf left =>
    match state.pc with
    | .processInotifyEvents =>
      -- The first `read` blocks as long as no event is queued.
      if state.session.queued = 0 then none
      else
        let opts := { opts with checkCache := state.session.checkCache }
        match (processInotifyEvents opts world fuel state.session.program buf).2 with
        | .returned program => some ⟨.select, state.session.processed taken program left⟩
        | .exited exit => some { state with pc := .exited exit }
        | .outOfFuel => none
    | _ => none

/-- The program in its main loop, where these numbers are taken by other descriptors. -/
def mainLoop (opts : Options) (taken : List Nat) : Machine MainState MainAction where
  step := mainStep opts taken

/-- The program before its main loop, after `reinitialize(-1)`. -/
def mainStart (opts : Options) (taken : List Nat) (program : Program) (verboseMask : Int)
    (dumpCache : Bool) : MainState where
  pc := .select
  session :=
    { program := program
      verboseMask := verboseMask
      dumpCache := dumpCache
      checkCache := opts.checkCache
      inotifyFd := lowestFree taken
      queued := 0
      typed := [] }

end SysProg.Inotify
