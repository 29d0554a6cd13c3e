import SysProg.Lib.NullTerminated

/-! `setenv` and `unsetenv`, which work on the array `environ`. -/

namespace SysProg.Proc

/-- The array of `"name=value"` strings. -/
abbrev Environ := NullTerminated (List UInt8)

/-- The character between a name and its value. -/
def equalsSign : UInt8 := 61

/-- The values of `errno` that matter here. -/
inductive Errno where
  /-- `EINVAL`. -/
  | einval
  /-- `ENOMEM`. -/
  | enomem
  deriving DecidableEq, Repr

/-- The variables of the C library. -/
structure Process where
  environ : Environ
  errno : Option Errno

/-- What the C library will do for `setenv`. -/
structure Library where
  /-- Whether `malloc` succeeds. -/
  malloc : Bool
  /-- Behind how many entries `putenv` places a new one, unless it fails. -/
  putenv : Option Nat

/-- The test of both functions for a name: `NULL`, empty, or with an `'='` in it. -/
def invalidName (name : Option (List UInt8)) : Bool :=
  match name with
  | none => true
  | some name => name = [] || name.contains equalsSign

/-- `strncmp(entry, name, len) == 0 && entry[len] == '='`. -/
def isFor (name entry : List UInt8) : Bool :=
  entry.take name.length = name && entry[name.length]? = some equalsSign

/-- The outer loop of `unsetenv`, where the cells are those from `ep` on. -/
def unsetFrom (name : List UInt8) : List (Option (List UInt8)) → List (Option (List UInt8))
  | some entry :: rest =>
    if isFor name entry then
      -- `ep` stays, because another entry is there now.
      unsetFrom name (NullTerminated.shiftBack (some entry :: rest))
    else some entry :: unsetFrom name rest
  | cells => cells
termination_by cells => (NullTerminated.entriesOf cells).length
decreasing_by
  · rw [NullTerminated.entriesOf_shiftBack]
    exact Nat.lt_succ_self _
  · exact Nat.lt_succ_self _

/-- The loop leaves a null pointer in the array. -/
theorem none_mem_unsetFrom {name : List UInt8} {cells : List (Option (List UInt8))}
    (terminated : none ∈ cells) : none ∈ unsetFrom name cells := by
  fun_induction unsetFrom name cells with
  | case1 entry rest found ih => exact ih (NullTerminated.none_mem_shiftBack terminated)
  -- An entry that stays is not the null pointer.
  | case2 entry rest other ih =>
    have later : none ∈ rest := (List.mem_cons.mp terminated).resolve_left nofun
    exact List.mem_cons_of_mem _ (ih later)
  | case3 cells => exact terminated

/-- `unsetenv` with a name that is valid. -/
def Environ.unset (environ : Environ) (name : List UInt8) : Environ :=
  ⟨unsetFrom name environ.cells, none_mem_unsetFrom environ.terminated⟩

/-- `unsetenv`, with what it returns. -/
def unsetenv (process : Process) (name : Option (List UInt8)) : Int × Process :=
  match name with
  | none => (-1, { process with errno := some .einval })
  | some bytes =>
    if invalidName (some bytes) then (-1, { process with errno := some .einval })
    else (0, { process with environ := process.environ.unset bytes })

/-- `getenv`: the value in the first entry for a name. -/
def getenv (environ : Environ) (name : List UInt8) : Option (List UInt8) :=
  (environ.entries.find? (isFor name)).map (List.drop (name.length + 1))

/-- The name in an entry. -/
def nameOf (entry : List UInt8) : List UInt8 :=
  entry.takeWhile (· ≠ equalsSign)

/-- `putenv`: an entry replaces the first one for the same name, or becomes a new one. -/
def putenv (environ : Environ) (place : Nat) (entry : List UInt8) : Environ :=
  match environ.entries.findIdx? (isFor (nameOf entry)) with
  | some found => .ofList (environ.entries.set found entry)
  | none => .ofList (environ.entries.take place ++ entry :: environ.entries.drop place)

/-- `setenv`, with what it returns. -/
def setenv (library : Library) (process : Process) (name value : Option (List UInt8))
    (overwrite : Int) : Int × Process :=
  match name, value with
  | some bytes, some value =>
    if invalidName (some bytes) then (-1, { process with errno := some .einval })
    else if (getenv process.environ bytes).isSome && overwrite = 0 then (0, process)
    else
      let (_, process) := unsetenv process (some bytes)
      if !library.malloc then (-1, { process with errno := some .enomem })
      else
        let es := bytes ++ equalsSign :: value
        match library.putenv with
        | none => (-1, { process with errno := some .enomem })
        | some place => (0, { process with environ := putenv process.environ place es })
  | _, _ => (-1, { process with errno := some .einval })

end SysProg.Proc
