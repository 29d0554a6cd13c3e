import Mathlib.Tactic

/-! How `chiflag` changes the i-node flags of the files on its command line. -/

namespace SysProg.Files

/-- The attributes of an i-node, which are bits of an `int`. -/
abbrev Flags := BitVec 32

/-- The attribute that a character stands for. -/
def attribFlag : Char → Option Flags
  -- FS_APPEND_FL
  | 'a' => some 0x20
  -- FS_NOATIME_FL
  | 'A' => some 0x80
  -- FS_COMPR_FL
  | 'c' => some 0x4
  -- FS_NODUMP_FL
  | 'd' => some 0x40
  -- FS_DIRSYNC_FL
  | 'D' => some 0x10000
  -- FS_IMMUTABLE_FL
  | 'i' => some 0x10
  -- FS_JOURNAL_DATA_FL
  | 'j' => some 0x4000
  -- FS_SECRM_FL
  | 's' => some 0x1
  -- FS_SYNC_FL
  | 'S' => some 0x8
  -- FS_NOTAIL_FL
  | 't' => some 0x8000
  -- FS_TOPDIR_FL
  | 'T' => some 0x20000
  -- FS_UNRM_FL
  | 'u' => some 0x2
  | _ => none

/-- The bit mask of an attribute string, where all other characters are errors. -/
def attributes (attr : Flags) : List Char → Option Flags
  | [] => some attr
  | char :: rest =>
    match attribFlag char with
    | some flag => attributes (attr ||| flag) rest
    | none => none

/-- An argument behind the first one, and how the system calls for it go. -/
structure Argument (File : Type*) where
  /-- The file that `open` finds. -/
  file : Option File
  getFlagsFails : Bool
  setFlagsFails : Bool
  closeFails : Bool

/-- The call for which `errExit` ends the program. -/
inductive ErrExit where
  | ioctl1
  | ioctl2
  | close
  deriving DecidableEq, Repr

/-- The variable `attr`, the flags of all files, and whether the program has ended. -/
structure State (File : Type*) where
  attr : Flags
  flags : File → Flags
  errExit : Option ErrExit

variable {File : Type*} [DecidableEq File]

/-- A turn of the loop over the files. -/
def turn (operator : Char) (state : State File) (argument : Argument File) : State File :=
  match argument.file with
  -- Most likely error is nonexistent file.
  | none => state
  | some file =>
    if (operator = '+' ∨ operator = '-') ∧ argument.getFlagsFails then
      { state with errExit := some .ioctl1 }
    else
      let oldAttr := state.flags file
      let attr :=
        if operator = '+' ∨ operator = '-' then
          if operator = '-' then oldAttr &&& ~~~state.attr else oldAttr ||| state.attr
        else state.attr
      if argument.setFlagsFails then { state with attr, errExit := some .ioctl2 }
      else
        let flags := Function.update state.flags file attr
        { attr, flags, errExit := if argument.closeFails then some .close else state.errExit }

/-- The loop over the files. -/
def loop (operator : Char) (state : State File) : List (Argument File) → State File
  | [] => state
  | argument :: rest =>
    let next := turn operator state argument
    if next.errExit.isSome then next else loop operator next rest

/--
`main`, with the characters of `argv[1]`, the files behind it and the flags that they have.

Nothing is done when the usage is displayed.
-/
def chiflag (operator : Char) (letters : List Char) (arguments : List (Argument File))
    (flags : File → Flags) : Option (State File) :=
  if arguments = [] ∨ operator ∉ ['+', '-', '='] ∨ operator :: letters = "--help".toList then none
  else (attributes 0 letters).map fun attr => loop operator ⟨attr, flags, none⟩ arguments

end SysProg.Files
