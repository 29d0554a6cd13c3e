import SysProg.Acl.Libacl

/-! How `acl_update` modifies or removes entries in an ACL of a file. -/

namespace SysProg.Acl

open SysProg.UsersGroups (Id errorId)

/-- An `enum Operation`. -/
inductive Operation where
  | unspecifiedOp
  | modifyEntries
  | removeEntries
  | removeDefaultACL
  | checkValidACL
  deriving DecidableEq, Repr

variable (fails : Nat → Bool)

/-- The loop of `findEntry`, where an entry is given by its place. -/
def findLoop (tag : Tag) (qual : Id) : AclT → Nat → Run (Option Nat)
  | [], _ => do
    call fails .aclGetEntry
    return none
  | entry :: acl, ent => do
    call fails .aclGetEntry
    call fails .aclGetTagType
    if tag = entry.tag then
      if tag = .user ∨ tag = .group then
        call fails .aclGetQualifier
        if qual = entry.qualifier then
          call fails .aclFree
          return some ent
        else
          call fails .aclFree
          findLoop tag qual acl (ent + 1)
      else return some ent
    else findLoop tag qual acl (ent + 1)

/-- `findEntry`. -/
def findEntry (acl : AclT) (tag : Tag) (qual : Id) : Run (Option Nat) :=
  findLoop fails tag qual acl 0

/-- Adds a permission when it is in a bit mask. -/
def addPerm (perms perm : Perms) (add : Permset → Permset) (permset : Permset) : Run Permset :=
  if perms &&& perm ≠ 0 then do
    call fails .aclAddPerm
    return add permset
  else return permset

/-- `setPerms`. -/
def setPerms (acl : AclT) (entry : Nat) (perms : Perms) : Run AclT := do
  call fails .aclGetPermset
  call fails .aclClearPerms
  let permset ← addPerm fails perms aclRead ({ · with read := true }) .clear
  let permset ← addPerm fails perms aclWrite ({ · with write := true }) permset
  let permset ← addPerm fails perms aclExecute ({ · with execute := true }) permset
  call fails .aclSetPermset
  return acl.modify entry ({ · with permset })

/-- Removes the entry if it has been found. -/
def deleteEntry (acl : AclT) (entry : Option Nat) : Run AclT :=
  match entry with
  | none => return acl
  | some entry => do
    call fails .aclDeleteEntry
    return acl.eraseIdx entry

/-- Creates a new entry with required tag and qualifier, if none has been found. -/
def createEntry (acl : AclT) (entry : Option Nat) (request : AccessControlEntry) :
    Run (AclT × Nat) :=
  match entry with
  | some entry => return (acl, entry)
  | none => do
    call fails .aclCreateEntry
    let entry := acl.length
    let acl := acl ++ [⟨.undefinedTag, errorId, .clear⟩]
    call fails .aclSetTagType
    let acl := acl.modify entry ({ · with tag := request.tag })
    if request.tag = .user ∨ request.tag = .group then
      call fails .aclSetQualifier
      return (acl.modify entry ({ · with qualifier := request.qual }), entry)
    else return (acl, entry)

/-- Removes the entry, or sets the permissions of it or of a new one. -/
def changeEntry (operation : Operation) (acl : AclT) (entry : Option Nat)
    (request : AccessControlEntry) : Run AclT :=
  if operation = .removeEntries then deleteEntry fails acl entry
  else do
    let (acl, entry) ← createEntry fails acl entry request
    setPerms fails acl entry request.perms

/-- What is done in memory for an element of `aclist`. -/
def changeACL (operation : Operation) (recalcMask : Bool) (acl : AclT)
    (request : AccessControlEntry) : Run AclT := do
  let entry ← findEntry fails acl request.tag request.qual
  let acl ← changeEntry fails operation acl entry request
  -- Recalculate the mask entry if requested.
  if recalcMask then
    call fails .aclCalcMask
    return calcMask acl
  else return acl

/-- The loop of `updateACL`. -/
def updateLoop (type : AclType) (operation : Operation) (recalcMask : Bool) (acl : AclT) :
    List AccessControlEntry → Run Unit
  | [] => return
  | request :: aclist => do
    let acl ← changeACL fails operation recalcMask acl request
    -- Update the file ACL.
    aclValid fails acl
    aclSetFile fails type acl
    updateLoop type operation recalcMask acl aclist

/-- `useDefaultACL ? ACL_TYPE_DEFAULT : ACL_TYPE_ACCESS`. -/
def aclType (useDefaultACL : Bool) : AclType :=
  if useDefaultACL then .default else .access

/-- `updateACL`. -/
def updateACL (useDefaultACL : Bool) (aclist : List AccessControlEntry) (operation : Operation)
    (recalcMask : Bool) : Run Unit := do
  let acl ← aclGetFile fails (aclType useDefaultACL)
  updateLoop fails (aclType useDefaultACL) operation recalcMask acl aclist
  call fails .aclFree

end SysProg.Acl
