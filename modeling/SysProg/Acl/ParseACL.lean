import SysProg.Lib.CString
import SysProg.UsersGroups.UgidFunctions

/-! How `acl_update` parses the entries of an ACL in an argument. -/

namespace SysProg.Acl

open SysProg.UsersGroups (Id errorId)

/-- `MAX_ENTRIES`. -/
def maxEntries : Nat := 10000

/-- `','`. -/
def comma : UInt8 := 44

/-- `':'`. -/
def colon : UInt8 := 58

/-- An `acl_tag_t`. -/
inductive Tag where
  | userObj
  | user
  | groupObj
  | group
  | mask
  | other
  /-- `ACL_UNDEFINED_TAG`, which an entry has when it is created. -/
  | undefinedTag
  deriving DecidableEq, Repr

/-- A bit mask of permissions. -/
abbrev Perms := BitVec 32

/-- `ACL_READ`. -/
def aclRead : Perms := 4

/-- `ACL_WRITE`. -/
def aclWrite : Perms := 2

/-- `ACL_EXECUTE`. -/
def aclExecute : Perms := 1

/-- A `struct AccessControlEntry`. -/
structure AccessControlEntry where
  tag : Tag
  qual : Id
  perms : Perms
  deriving DecidableEq, Repr

/-- The functions that find IDs for the names of users and groups, or `-1`. -/
structure Lookups where
  userIdFromName : List UInt8 → Id
  groupIdFromName : List UInt8 → Id

/-- The errors that are printed. -/
inductive ParseError where
  /-- `"Too many entries in ACL\n"`. -/
  | tooManyEntries
  /-- `"Missing initial colon in ACL entry: %s\n"`. -/
  | missingInitialColon
  /-- `"Cannot specify permissions here\n"`. -/
  | cannotSpecifyPermissions
  /-- `"Must specify permissions\n"`. -/
  | mustSpecifyPermissions
  /-- `"Bad tag: %s\n"`. -/
  | badTag
  /-- `"Bad user ID: %s\n"`. -/
  | badUserId
  /-- `"Bad group ID: %s\n"`. -/
  | badGroupId
  /-- `"Bad character in permissions string: %c\n"`. -/
  | badCharacter (char : UInt8)
  deriving DecidableEq, Repr

/-- The bytes of a string constant. -/
def bytes (text : String) : List UInt8 :=
  text.toList.map fun char => char.toNat.toUInt8

/-- The tag type for a tag string, which depends on the presence of a qualifier. -/
def tagType (text : List UInt8) (hasQual : Bool) : Option Tag :=
  if text = bytes "u" ∨ text = bytes "user" then some (if hasQual then .user else .userObj)
  else if text = bytes "g" ∨ text = bytes "group" then some (if hasQual then .group else .groupObj)
  else if text = bytes "o" ∨ text = bytes "other" then some .other
  else if text = bytes "m" ∨ text = bytes "mask" then some .mask
  else none

/-- The loop over the permissions string, with the bits that it has set when it ends. -/
def permsLoop (perms : Perms) : List UInt8 → Perms × Except ParseError Unit
  | [] => (perms, .ok ())
  | char :: text =>
    -- 'r'
    if char = 114 then permsLoop (perms ||| aclRead) text
    -- 'w'
    else if char = 119 then permsLoop (perms ||| aclWrite) text
    -- 'x'
    else if char = 120 then permsLoop (perms ||| aclExecute) text
    -- '-'
    else if char ≠ 45 then (perms, .error (.badCharacter char))
    else permsLoop perms text

/-- What `parseEntrySpec` leaves in memory and in `ace`, and whether it returns `true`. -/
structure EntrySpec where
  heap : Heap
  ace : AccessControlEntry
  result : Except ParseError Unit

/-- The ID for a qualifier, or what is wrong with it. -/
def qualifierId (lookups : Lookups) (tag : Tag) (qualifier : List UInt8) :
    Id × Except ParseError Unit :=
  match tag with
  | .user =>
    let qual := lookups.userIdFromName qualifier
    (qual, if qual = errorId then .error .badUserId else .ok ())
  | .group =>
    let qual := lookups.groupIdFromName qualifier
    (qual, if qual = errorId then .error .badGroupId else .ok ())
  | _ => (0, .ok ())

/-- `parseEntrySpec`. -/
def parseEntrySpec (lookups : Lookups) (heap : Heap) (entryStr : Pointer)
    (ace : AccessControlEntry) (permsReqd : Bool) : EntrySpec :=
  match heap.strchr entryStr colon with
  | none => ⟨heap, ace, .error .missingInitialColon⟩
  | some colon1 =>
    let hasQual := heap.byte (colon1.advance 1) ≠ 0 ∧ heap.byte (colon1.advance 1) ≠ colon
    let heap := heap.write colon1 0
    let colon2 := heap.strchr (colon1.advance 1) colon
    let hasPerms := colon2.any fun colon2 => heap.byte (colon2.advance 1) ≠ 0
    if hasPerms ∧ !permsReqd then ⟨heap, ace, .error .cannotSpecifyPermissions⟩
    else if !hasPerms ∧ permsReqd then ⟨heap, ace, .error .mustSpecifyPermissions⟩
    else
      match tagType (heap.string entryStr) hasQual with
      | none => ⟨heap, ace, .error .badTag⟩
      | some tag =>
        let heap := heap.terminate colon2
        let (qual, result) := qualifierId lookups tag (heap.string (colon1.advance 1))
        let ace := { ace with tag, qual }
        match result, colon2, hasPerms with
        | .error error, _, _ => ⟨heap, ace, .error error⟩
        | .ok (), some colon2, true =>
          let (perms, result) := permsLoop 0 (heap.string (colon2.advance 1))
          ⟨heap, { ace with perms }, result⟩
        | .ok (), _, _ => ⟨heap, ace, .ok ()⟩

/-- What `parseACL` leaves in memory and in `aclist`, and the number that it finds. -/
structure Parsed where
  heap : Heap
  aclist : Nat → AccessControlEntry
  result : Except ParseError Nat

/-- What `parseACL` returns. -/
def Parsed.returned (parsed : Parsed) : Int :=
  match parsed.result with
  | .error _ => -1
  | .ok count => count

/-- The loop of `parseACL`, where the memory behind `aclist` goes on without an end. -/
def parseLoop (lookups : Lookups) (permsReqd : Bool) (n : Nat) (nextEntry : Pointer) (heap : Heap)
    (aclist : Nat → AccessControlEntry) : Parsed :=
  if n ≥ maxEntries then ⟨heap, aclist, .error .tooManyEntries⟩
  else
    let comma := heap.strchr nextEntry comma
    let heap := heap.terminate comma
    let entry := parseEntrySpec lookups heap nextEntry (aclist n) permsReqd
    let aclist := Function.update aclist n entry.ace
    match entry.result, comma with
    | .error error, _ => ⟨entry.heap, aclist, .error error⟩
    -- This was the last entry.
    | .ok (), none => ⟨entry.heap, aclist, .ok (n + 1)⟩
    | .ok (), some comma =>
      parseLoop lookups permsReqd (n + 1) (comma.advance 1) entry.heap aclist
termination_by maxEntries - n

/-- `parseACL`. -/
def parseACL (lookups : Lookups) (heap : Heap) (aclStr : Pointer)
    (aclist : Nat → AccessControlEntry) (permsReqd : Bool) : Parsed :=
  parseLoop lookups permsReqd 0 aclStr heap aclist

end SysProg.Acl
