import SysProg.Lib.Pathname
import SysProg.Lib.Strings
import SysProg.Proc.Setenv

/-! `execlp` made of `execve`. -/

namespace SysProg.Procexec.Execlp

open SysProg.Proc SysProg.Pathname SysProg.Strings

/-- A value of `errno`. -/
abbrev Errno := Nat

/-- `ENOEXEC`. -/
def enoexec : Errno := 8

/-- `ENOMEM`. -/
def enomem : Errno := 12

/-- `EACCES`. -/
def eacces : Errno := 13

/-- `':'`. -/
def colon : UInt8 := 58

/-- `SHELL_PATH`, which is `"/bin/sh"`. -/
def shellPath : List UInt8 := [47, 98, 105, 110, 47, 115, 104]

/-- `"PATH"`. -/
def pathVariable : List UInt8 := [80, 65, 84, 72]

/-- A vector of pointers to strings, with what is in its cells. -/
structure ArgVector where
  cells : List (Option (List UInt8))
  /-- The indices of stores that were not inside the vector. -/
  outside : List Nat
  deriving DecidableEq

/-- A pointer is stored in a vector. -/
def ArgVector.store (vector : ArgVector) (index : Nat) (pointer : Option (List UInt8)) :
    ArgVector :=
  if index < vector.cells.length then { vector with cells := vector.cells.set index pointer }
  else { vector with outside := vector.outside ++ [index] }

/-- What `execve` is called with. -/
structure Exec where
  pathname : List UInt8
  argv : ArgVector
  envp : Environ

/-- An attempt to execute a file, and the one to execute a shell instead. -/
structure Call where
  file : Exec
  script : Option Exec

/-- How `execlp` ends. -/
inductive Result where
  /-- Another program is executed. -/
  | replaced
  /-- `execlp` returns `-1`, with this in `errno`. -/
  | returned (errno : Errno)
  /-- A pathname does not fit into its buffer. -/
  | overrun
  deriving DecidableEq, Repr

/-- What `execlp` does. -/
structure Outcome where
  calls : List Call
  result : Result

/-- An attempt comes before all others. -/
def Outcome.after (outcome : Outcome) (call : Call) : Outcome :=
  { outcome with calls := call :: outcome.calls }

/-- The environment of the process, and what the system will do. -/
structure System where
  environ : Environ
  /-- Whether there is memory for `argv` and for `envp`. -/
  calloc : Bool × Bool
  /-- What is in the new cells of `argv`, when it grows to a size. -/
  realloc : Nat → Option (Nat → Option (List UInt8))
  /-- What is in the cells of `shArgv` at first. -/
  stack : Nat → Option (List UInt8)
  /-- The error with which an attempt fails, unless the file is executed. -/
  execve : Nat → Option Errno
  /-- Whether the shell can be executed, when that attempt has failed with `ENOEXEC`. -/
  shell : Nat → Bool

/-- The test of `argv` for its size before an argument is added. -/
def resize (system : System) (argv : ArgVector) (argc : Nat) : Option ArgVector :=
  if argc + 1 ≥ argv.cells.length then
    (system.realloc (argv.cells.length + 100)).map fun cells =>
      { argv with cells := argv.cells ++ (List.range 100).map cells }
  else some argv

/-- The loop that gets the arguments, with those that are left for `va_arg`. -/
def argLoop (system : System) (argv : ArgVector) (argc : Nat) :
    List (Option (List UInt8)) → Option (ArgVector × Nat)
  | [] => some (argv, argc)
  | next :: argList =>
    if argv.cells[argc - 1]?.join.isSome then
      (resize system argv argc).bind fun argv =>
        argLoop system (argv.store argc next) (argc + 1) argList
    else some (argv, argc)

/-- `argv` and `argc`, made of the arguments and the null pointer behind them. -/
def argumentVector (system : System) (args : List (List UInt8)) : Option (ArgVector × Nat) :=
  if system.calloc.1 then
    let argv : ArgVector := ⟨List.replicate 100 none, []⟩
    argLoop system (argv.store 0 args.head?) 1 (args.tail.map some ++ [none])
  else none

/-- `execShScript`, up to the call of `execve`. -/
def execShScript (system : System) (argc : Nat) (argv : ArgVector) (envp : Environ) : Exec where
  pathname := shellPath
  argv :=
    let shArgv : ArgVector := ⟨(List.range (argc + 1)).map system.stack, []⟩
    (List.range (argc + 1)).foldl (fun shArgv j => shArgv.store (j + 1) argv.cells[j]?.join)
      (shArgv.store 0 (some shellPath))
  envp := envp

/-- An attempt, with the shell if the file cannot be executed as it is. -/
def attempt (system : System) (turn argc : Nat) (file : Exec) : Call where
  file := file
  script :=
    if system.execve turn = some enoexec then some (execShScript system argc file.argv file.envp)
    else none

/-- The error with which an attempt fails, if the shell cannot be executed either. -/
def System.failure (system : System) (turn : Nat) : Option Errno :=
  (system.execve turn).filter fun errno => !(errno = enoexec && system.shell turn)

/-- A string in memory that has been allocated for it. -/
structure Buffer where
  capacity : Nat
  text : List UInt8
  /-- There is room for the null byte, too. -/
  fits : text.length < capacity

/-- `strcat`, or `strncat` with as many bytes as there are, if there is room for them. -/
def Buffer.strcat (buffer : Buffer) (text : List UInt8) : Option Buffer :=
  if fits : (buffer.text ++ text).length < buffer.capacity then
    some ⟨buffer.capacity, buffer.text ++ text, fits⟩
  else none

/-- The pathname for a prefix, which ends so many bytes behind where it starts. -/
def buildPathname (prStart : List UInt8) (prEnd : Nat) (filename : List UInt8) :
    Option Buffer := do
  let pathname : Buffer := ⟨max 1 prEnd + filename.length + 2, [], by simp⟩
  let pathname ← pathname.strcat (if prEnd = 0 then dot else prStart.take prEnd)
  let pathname ← pathname.strcat [slash]
  pathname.strcat filename

/-- The loop over the prefixes of `PATH`. -/
def searchLoop (system : System) (filename : List UInt8) (argv : ArgVector) (argc : Nat)
    (envp : Environ) (turn : Nat) (prStart : List UInt8) (fndEACCES : Bool) : Outcome :=
  let prEnd := (strchr prStart colon).getD prStart.length
  match buildPathname prStart prEnd filename with
  | none => ⟨[], .overrun⟩
  | some pathname =>
    let call := attempt system turn argc ⟨pathname.text, argv, envp⟩
    match system.failure turn with
    | none => ⟨[call], .replaced⟩
    | some savedErrno =>
      let fndEACCES := fndEACCES || savedErrno = eacces
      -- Only the last prefix ends with the string.
      if prEnd < prStart.length then
        (searchLoop system filename argv argc envp (turn + 1) (prStart.drop (prEnd + 1))
          fndEACCES).after call
      else ⟨[call], .returned (if fndEACCES then eacces else savedErrno)⟩
termination_by prStart.length
decreasing_by
  rw [List.length_drop]
  omega

/-- `execlp`, with arguments up to the null pointer. -/
def execlp (system : System) (filename : List UInt8) (args : List (List UInt8)) : Outcome :=
  match argumentVector system args with
  | none => ⟨[], .returned enomem⟩
  | some (argv, argc) =>
    if system.calloc.2 then
      let envp := .ofList system.environ.entries
      if (strchr filename slash).isSome then
        let call := attempt system 0 argc ⟨filename, argv, envp⟩
        match system.failure 0 with
        | none => ⟨[call], .replaced⟩
        | some savedErrno => ⟨[call], .returned savedErrno⟩
      else
        let p := (getenv system.environ pathVariable).getD []
        searchLoop system filename argv argc envp 0 (if p.length = 0 then dot else p) false
    else ⟨[], .returned enomem⟩

end SysProg.Procexec.Execlp
