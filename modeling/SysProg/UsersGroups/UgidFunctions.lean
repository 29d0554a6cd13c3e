import SysProg.Lib.Strtol

/-! How names of users and groups are turned into IDs. -/

namespace SysProg.UsersGroups

open SysProg.Strtol

/-- A `uid_t` or `gid_t`. -/
abbrev Id := UInt32

/-- `-1` as an ID, which stands for an error. -/
def errorId : Id := -1

/-- An entry of the user or group database, as far as it is looked at. -/
abbrev Database := List UInt8 → Option Id

/-- What both functions do, with the database that has the entries. -/
def idFromName (lookup : Database) : Option (List UInt8) → Id
  -- On NULL or empty string return an error.
  | none => errorId
  | some [] => errorId
  | some name =>
    let (number, rest) := strtol name
    -- The `long` is assigned to an ID of 32 bits.
    if rest = [] then UInt32.ofInt number
    else (lookup name).getD errorId

/-- `userIdFromName`, with the IDs of the entries that `getpwnam` finds. -/
def userIdFromName (getpwnam : Database) (name : Option (List UInt8)) : Id :=
  idFromName getpwnam name

/-- `groupIdFromName`, with the IDs of the entries that `getgrnam` finds. -/
def groupIdFromName (getgrnam : Database) (name : Option (List UInt8)) : Id :=
  idFromName getgrnam name

end SysProg.UsersGroups
