import SysProg.Acl.ParseACL
import SysProg.Lib.KeyedList

/-! The functions of the ACL library that `acl_update` calls, each of which may fail. -/

namespace SysProg.Acl

open SysProg.UsersGroups (Id errorId)

/-- An `acl_permset_t`. -/
structure Permset where
  read : Bool
  write : Bool
  execute : Bool
  deriving DecidableEq, Repr

/-- No permissions at all. -/
def Permset.clear : Permset :=
  ⟨false, false, false⟩

/-- The permissions of either. -/
def Permset.union (permset other : Permset) : Permset :=
  ⟨permset.read || other.read, permset.write || other.write, permset.execute || other.execute⟩

/-- What an entry is found by: a qualifier matters for some tags only. -/
abbrev Key := Tag × Option Id

/-- The key for a tag and a qualifier. -/
def keyOf (tag : Tag) (qualifier : Id) : Key :=
  (tag, if tag = .user ∨ tag = .group then some qualifier else none)

/-- An entry of an ACL. -/
structure AclEntry where
  tag : Tag
  qualifier : Id
  permset : Permset
  deriving DecidableEq, Repr

/-- The key of an entry. -/
def AclEntry.key (entry : AclEntry) : Key :=
  keyOf entry.tag entry.qualifier

/-- An `acl_t`. -/
abbrev AclT := List AclEntry

/-- The key of the mask entry. -/
def maskKey : Key :=
  (.mask, none)

/-- The permissions of the entries that the mask limits, taken together. -/
def groupClass (acl : AclT) : Permset :=
  (acl.filter fun entry => entry.tag ∈ [.user, .groupObj, .group]).foldl
    (fun permset entry => permset.union entry.permset) .clear

/-- What `acl_calc_mask` does: it adds the mask entry if there is none. -/
def calcMask (acl : AclT) : AclT :=
  KeyedList.put AclEntry.key maskKey (fun entry => { entry with permset := groupClass acl })
    ⟨.mask, errorId, groupClass acl⟩ acl

/-- How many entries there are with a tag. -/
def tagCount (acl : AclT) (tag : Tag) : Nat :=
  acl.countP fun entry => entry.tag = tag

/-- What `acl_valid` checks. -/
structure Valid (acl : AclT) : Prop where
  required : ∀ tag ∈ [.userObj, .groupObj, .other], tagCount acl tag = 1
  mask : tagCount acl .mask ≤ 1
  needsMask : tagCount acl .user + tagCount acl .group ≠ 0 → tagCount acl .mask = 1
  distinct : KeyedList.Distinct AclEntry.key acl
  defined : tagCount acl .undefinedTag = 0

instance (acl : AclT) : Decidable (Valid acl) :=
  decidable_of_iff ((∀ tag ∈ [.userObj, .groupObj, .other], tagCount acl tag = 1) ∧
      tagCount acl .mask ≤ 1 ∧
      (tagCount acl .user + tagCount acl .group ≠ 0 → tagCount acl .mask = 1) ∧
      KeyedList.Distinct AclEntry.key acl ∧ tagCount acl .undefinedTag = 0)
    ⟨fun ⟨required, mask, needsMask, distinct, defined⟩ =>
        ⟨required, mask, needsMask, distinct, defined⟩,
      fun ⟨required, mask, needsMask, distinct, defined⟩ =>
        ⟨required, mask, needsMask, distinct, defined⟩⟩

/-- An `acl_type_t`. -/
inductive AclType where
  | access
  | default
  deriving DecidableEq, Repr

/-- The functions of the library. -/
inductive LibraryCall where
  | aclGetFile
  | aclGetEntry
  | aclGetTagType
  | aclGetQualifier
  | aclFree
  | aclGetPermset
  | aclClearPerms
  | aclAddPerm
  | aclSetPermset
  | aclDeleteEntry
  | aclCreateEntry
  | aclSetTagType
  | aclSetQualifier
  | aclCalcMask
  | aclValid
  | aclSetFile
  deriving DecidableEq, Repr

/-- The ACLs of the file, those that have been set one after the other, and the calls so far. -/
structure World where
  acl : AclType → AclT
  history : List AclT
  calls : Nat

/-- A part of the program, which exits when a call fails. -/
abbrev Run := EStateM LibraryCall World

/-- A call of the library, where it is given which of all calls fail. -/
def call (fails : Nat → Bool) (function : LibraryCall) : Run Unit := fun world =>
  let next := { world with calls := world.calls + 1 }
  if fails world.calls then .error function next else .ok () next

/-- `acl_get_file`. -/
def aclGetFile (fails : Nat → Bool) (type : AclType) : Run AclT := do
  call fails .aclGetFile
  return (← get).acl type

/-- `acl_valid`, which also returns -1 for an ACL that is not valid. -/
def aclValid (fails : Nat → Bool) (acl : AclT) : Run Unit := do
  call fails .aclValid
  if Valid acl then return else throw .aclValid

/-- `acl_set_file`. -/
def aclSetFile (fails : Nat → Bool) (type : AclType) (acl : AclT) : Run Unit := do
  call fails .aclSetFile
  modify fun world => { world with
    acl := Function.update world.acl type acl
    history := world.history ++ [acl] }

end SysProg.Acl
