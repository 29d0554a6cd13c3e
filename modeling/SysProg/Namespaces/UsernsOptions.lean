import SysProg.Lib.Getopt
import SysProg.Lib.Strtol
import SysProg.Namespaces.UsernsChildExec

/-! The command-line options of `userns_child_exec`, and what is done for the repeatable ones. -/

namespace SysProg.Namespaces.UsernsOptions

open Getopt (Answer Scan)
open UsernsChildExec (CString)

/-- `MAX_OPT`. -/
def maxOpt : Nat := 100

/-- A `struct option_list`. -/
structure OptionList where
  opt : Char
  val : Option CString
  deriving DecidableEq, Repr

/-- A `struct cmd_options`, where the memory behind `opt_list` goes on without an end. -/
structure CmdOptions extends UsernsChildExec.CmdOptions where
  argv : List CString
  flags : BitVec 32
  verbose : Bool
  optList : Nat → OptionList

/-- How the program exits when it does not like its command line. -/
inductive Exit where
  /-- `"Too many repeatable options (maximum: %d)\n"`. -/
  | tooMany
  /-- `usage`. -/
  | usage
  /-- `"-M, -G, -P, or -r specified without -U\n"`, and then `usage`. -/
  | nonsensical
  /-- `"No command provided\n"`, and then `usage`. -/
  | noCommand
  deriving DecidableEq, Repr

/-- `CLONE_NEWUSER`. -/
def cloneNewuser : BitVec 32 := 0x10000000

/-- `"CimnuUM:G:P:rDvpAIs:b:S:dx:X:w:"`, which follows the initial '+'. -/
def optstring : List Char :=
  "CimnuUM:G:P:rDvpAIs:b:S:dx:X:w:".toList

/-- Adds a namespace that is to be created. -/
def CmdOptions.clone (opts : CmdOptions) (flag : BitVec 32) : CmdOptions :=
  { opts with flags := opts.flags ||| flag }

/-- What is done about a repeatable option. -/
def repeatable (opts : CmdOptions) (opt : Char) (optarg : Option CString) :
    Except (Exit × CmdOptions) CmdOptions :=
  if opts.optCnt ≥ maxOpt then .error (.tooMany, opts)
  else
    let val :=
      if opt = 's' ∨ opt = 'S' ∨ opt = 'x' ∨ opt = 'X' ∨ opt = 'w' ∨ opt = 'b' then optarg else none
    .ok { opts with
      optList := Function.update opts.optList opts.optCnt ⟨opt, val⟩
      optCnt := opts.optCnt + 1 }

/-- The body of the loop over `getopt`. -/
def option (opts : CmdOptions) : Answer → Except (Exit × CmdOptions) CmdOptions
  | .bad _ => .error (.usage, opts)
  | .option opt optarg =>
    match opt with
    -- CLONE_NEWCGROUP
    | 'C' => .ok (opts.clone 0x02000000)
    -- CLONE_NEWIPC
    | 'i' => .ok (opts.clone 0x08000000)
    -- CLONE_NEWNS
    | 'm' => .ok (opts.clone 0x00020000)
    -- CLONE_NEWNET
    | 'n' => .ok (opts.clone 0x40000000)
    -- CLONE_NEWPID
    | 'p' => .ok (opts.clone 0x20000000)
    -- CLONE_NEWUTS
    | 'u' => .ok (opts.clone 0x04000000)
    | 'U' => .ok (opts.clone cloneNewuser)
    | 'M' => .ok { opts with uidMap := optarg }
    | 'G' => .ok { opts with gidMap := optarg }
    | 'P' => .ok { opts with projidMap := optarg }
    | 'r' => .ok { opts with createRootMappings := true }
    | 'D' => .ok { opts with denySetgroups := false }
    | 'v' => .ok { opts with verbose := true }
    | 'I' => repeatable opts opt optarg
    | 'A' => repeatable opts opt optarg
    | 'b' => repeatable opts opt optarg
    | 's' => repeatable opts opt optarg
    | 'd' => repeatable opts opt optarg
    | 'x' => repeatable opts opt optarg
    | 'X' => repeatable opts opt optarg
    | 'w' => repeatable opts opt optarg
    | _ => .error (.usage, opts)

/-- What has been set before the loop, in memory that has these contents. -/
def initial (memory : Nat → OptionList) : CmdOptions where
  createRootMappings := false
  denySetgroups := true
  uidMap := none
  gidMap := none
  projidMap := none
  optCnt := 0
  argv := []
  flags := 0
  verbose := false
  optList := memory

/-- What the options must not be without `-U`, or together. -/
def CmdOptions.nonsensical (opts : CmdOptions) : Bool :=
  ((opts.uidMap.isSome || opts.gidMap.isSome || opts.projidMap.isSome ||
      opts.createRootMappings) && opts.flags &&& cloneNewuser == 0) ||
    (opts.createRootMappings && (opts.uidMap.isSome || opts.gidMap.isSome))

/-- `parse_command_options`, with the arguments behind `argv[0]`. -/
def parseCommandOptions (arguments : List CString) (memory : Nat → OptionList) :
    Except (Exit × CmdOptions) CmdOptions :=
  match Getopt.loop (Getopt.tableOf (Getopt.optionString optstring)) option (initial memory)
      ⟨[], arguments⟩ with
  | .error exit => .error exit
  | .ok (opts, scan) =>
    if opts.nonsensical then .error (.nonsensical, opts)
    else if scan.arguments = [] then .error (.noCommand, opts)
    else .ok { opts with argv := scan.arguments }

/-- What is done for a repeatable option. -/
inductive Action where
  | raiseInheritableAndAmbientCaps (doAmbient : Bool)
  | setSecurebits (optval : CString)
  /-- `display_creds_and_caps("[-d %d] ")`. -/
  | displayCredsAndCaps (displayCnt : Nat)
  /-- `setresuid(newuid, newuid, newuid)`. -/
  | setresuid (newuid : UInt32)
  | setProcessUids (optval : CString)
  | sleep (seconds : UInt32)
  /-- `cap_set_proc(cap_from_text(val))`. -/
  | capSetProc (text : CString)
  | modifyIndividualCapability (optval : CString)
  deriving DecidableEq, Repr

/-- The bytes of a string. -/
def bytes (text : CString) : List UInt8 :=
  text.map fun char => char.toNat.toUInt8

/-- `atoi`, where an `int` is stored in 32 bits without a sign. -/
def atoi (text : CString) : UInt32 :=
  UInt32.ofInt (Strtol.atoi (bytes text))

/-- What is done for an element of `opt_list`, and `display_cnt` behind it. -/
def action (displayCnt : Nat) (element : OptionList) : Nat × Option Action :=
  let val := element.val.getD []
  match element.opt with
  | 'A' => (displayCnt, some (.raiseInheritableAndAmbientCaps true))
  | 'b' => (displayCnt, some (.setSecurebits val))
  | 'd' => (displayCnt + 1, some (.displayCredsAndCaps (displayCnt + 1)))
  | 'I' => (displayCnt, some (.raiseInheritableAndAmbientCaps false))
  | 's' => (displayCnt, some (.setresuid (atoi val)))
  | 'S' => (displayCnt, some (.setProcessUids val))
  | 'w' => (displayCnt, some (.sleep (atoi val)))
  | 'x' => (displayCnt, some (.capSetProc val))
  | 'X' => (displayCnt, some (.modifyIndividualCapability val))
  -- "Unexpected option (-%c) in perform_repeatable_options()\n"
  | _ => (displayCnt, none)

/--
The loop of `perform_repeatable_options`, for the elements from this one on.

An action changes the process, or it makes the program exit.
-/
def performLoop {World Error : Type*} (act : Action → World → Except Error World)
    (opts : CmdOptions) (j displayCnt : Nat) (world : World) : Except Error World :=
  if j < opts.optCnt then
    match action displayCnt (opts.optList j) with
    | (displayCnt, none) => performLoop act opts (j + 1) displayCnt world
    | (displayCnt, some action) =>
      match act action world with
      | .error error => .error error
      | .ok world => performLoop act opts (j + 1) displayCnt world
  else .ok world
termination_by opts.optCnt - j

/-- `perform_repeatable_options`. -/
def performRepeatableOptions {World Error : Type*} (act : Action → World → Except Error World)
    (opts : CmdOptions) (world : World) : Except Error World :=
  performLoop act opts 0 0 world

end SysProg.Namespaces.UsernsOptions
