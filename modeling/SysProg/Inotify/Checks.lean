import SysProg.Inotify.RootPaths

/-! The two functions that check whether the cached pathnames are those of directories. -/

namespace SysProg.Inotify

/-- What a check of the cache does. -/
structure Check where
  /-- The slots whose pathnames it passes to `lstat`. -/
  inspected : List Nat
  /-- The number of failures, unless the program exits. -/
  result : Except Exit Nat
  deriving DecidableEq

/-- A check that has passed the pathname in a slot to `lstat` before it goes on. -/
def Check.after (check : Check) (j : Nat) : Check :=
  { check with inspected := j :: check.inspected }

/--
The loop of `checkCacheConsistency` from a slot on, where there have been so many failures.

The buffer for `lstat` keeps what the last successful call has stored.
-/
def consistencyLoop (lstat : List UInt8 → Option Stat) (j failures : Nat) (sb : Stat) :
    Cache → Check
  | [] => ⟨[], .ok failures⟩
  | slot :: rest =>
    if slot.wd ≥ 0 then
      match lstat slot.path.val with
      | none => (consistencyLoop lstat (j + 1) (failures + 1) sb rest).after j
      | some sb => (consistencyLoop lstat (j + 1) failures sb rest).after j
    -- The test for a directory belongs to the slots that are not live.
    else if !sb.isDir then ⟨[], .error .failure⟩
    else consistencyLoop lstat (j + 1) failures sb rest

/-- `checkCacheConsistency`, whose buffer holds anything at first. -/
def checkCacheConsistency (lstat : List UInt8 → Option Stat) (sb : Stat) (cache : Cache) : Check :=
  consistencyLoop lstat 0 0 sb cache

/-- What `checkAllCachedPathnamesExist` does, which counts the entries that it has verified, too. -/
structure FullCheck extends Check where
  cnt : Nat

/-- The loop of `checkAllCachedPathnamesExist` from a slot on. -/
def existLoop (lstat : List UInt8 → Option Stat) (j cnt failures : Nat) : Cache → FullCheck
  | [] => ⟨⟨[], .ok failures⟩, cnt⟩
  | slot :: rest =>
    if slot.wd ≥ 0 then
      match lstat slot.path.val with
      | none =>
        let later := existLoop lstat (j + 1) cnt (failures + 1) rest
        { later with toCheck := later.toCheck.after j }
      | some sb =>
        if !sb.isDir then ⟨⟨[j], .error .failure⟩, cnt⟩
        else
          let later := existLoop lstat (j + 1) (cnt + 1) failures rest
          { later with toCheck := later.toCheck.after j }
    else existLoop lstat (j + 1) cnt failures rest

/-- `checkAllCachedPathnamesExist`, apart from what it logs. -/
def checkAllCachedPathnamesExist (lstat : List UInt8 → Option Stat) (cache : Cache) : FullCheck :=
  existLoop lstat 0 0 0 cache

end SysProg.Inotify
