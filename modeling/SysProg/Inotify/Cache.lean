import SysProg.Lib.SlotTable

/-! The cache of watched directories that follows the directory trees. -/

namespace SysProg.Inotify

/-- The size of a buffer for a pathname, which includes the terminating null byte. -/
def pathMax : Nat := 4096

/-- The byte that separates the parts of a pathname. -/
def slash : UInt8 := 47

/-- A pathname that fits into the buffer of a cache slot. -/
abbrev Pathname := { bytes : List UInt8 // bytes.length < pathMax }

/-- Writes text into a buffer for a pathname, where it is truncated if it is too long. -/
def snprintf (text : List UInt8) : Pathname :=
  ⟨text.take (pathMax - 1), by
    rw [List.length_take]
    exact lt_of_le_of_lt (min_le_left _ _) (by decide)⟩

/-- A watch descriptor. -/
abbrev Watch := { wd : Int // 0 ≤ wd }

/-- The watch descriptor with this number. -/
def watchOf (number : Nat) : Watch :=
  ⟨number, Int.natCast_nonneg number⟩

/-- An unused slot has the watch descriptor -1 and an empty pathname. -/
structure Slot where
  wd : Int
  path : Pathname
  unused : wd < 0 → wd = -1 ∧ path.val = []
  deriving DecidableEq

/-- The array of cached items. -/
abbrev Cache := List Slot

/-- A slot that holds no item. -/
def Slot.empty : Slot := ⟨-1, ⟨[], by decide⟩, fun _ => ⟨rfl, rfl⟩⟩

/-- A slot that holds an item. -/
def Slot.of (wd : Watch) (path : Pathname) : Slot :=
  ⟨wd.val, path, fun negative => absurd wd.property (not_le.mpr negative)⟩

/-- Why the program exits. -/
inductive Exit where
  /-- `exit(EXIT_SUCCESS)`. -/
  | success
  /-- `exit(EXIT_FAILURE)`. -/
  | failure
  /-- `createStopFileAndAbort()`. -/
  | aborted
  /-- A cache slot is used that has not been looked up, for which C defines no behaviour. -/
  | undefined
  deriving DecidableEq, Repr

/-- Looks for the slot with a watch descriptor. -/
def findWatch (cache : Cache) (wd : Int) : Option Nat :=
  cache.findIdx? fun slot => slot.wd = wd

/-- Marks a slot as unused. -/
def markCacheSlotEmpty (cache : Cache) (slot : Nat) : Cache :=
  cache.set slot Slot.empty

/-- By how many slots the cache grows. -/
def allocIncr : Nat := 200

/-- Finds an unused slot, for which the cache grows if there is none. -/
def findEmptyCacheSlot (cache : Cache) : Cache × Nat :=
  match cache.findIdx? fun slot => slot.wd = -1 with
  | some slot => (cache, slot)
  | none => (cache ++ List.replicate allocIncr Slot.empty, cache.length)

/-- Adds an item to the cache, and returns its slot. -/
def addWatchToCache (cache : Cache) (wd : Watch) (pathname : Pathname) : Cache × Nat :=
  let (cache, slot) := findEmptyCacheSlot cache
  (cache.set slot (Slot.of wd pathname), slot)

/-- Looks for the slot with a pathname. -/
def pathnameToCacheSlot (cache : Cache) (pathname : List UInt8) : Option Nat :=
  cache.findIdx? fun slot => 0 ≤ slot.wd ∧ slot.path.val = pathname

/-- Whether a pathname is in the cache. -/
def pathnameInCache (cache : Cache) (pathname : List UInt8) : Bool :=
  (pathnameToCacheSlot cache pathname).isSome

/-- What `inotify_add_watch` answers. -/
inductive AddWatch where
  | watching (wd : Watch)
  /-- The directory has been deleted or renamed. -/
  | enoent
  /-- Any other error is unexpected. -/
  | failed
  deriving DecidableEq

/-- A file that `nftw` visits, and the answer of the kernel if a watch is asked for. -/
structure Visit where
  pathname : Pathname
  isDir : Bool
  addWatch : AddWatch

/-- Watches a directory that `nftw` visits. -/
def traverseTree (cache : Cache) (visit : Visit) : Except Exit Cache :=
  if !visit.isDir then .ok cache
  else match visit.addWatch with
    | .enoent => .ok cache
    | .failed => .error .failure
    | .watching wd =>
      if (findWatch cache wd.val).isSome then .ok cache
      else .ok (addWatchToCache cache wd visit.pathname).1

/-- Watches the directories of a subtree, in the order in which `nftw` visits them. -/
def watchSubtree (cache : Cache) (visits : List Visit) : Except Exit Cache :=
  visits.foldlM traverseTree cache

/-- A cached pathname is this one, or lies below it. -/
def isBelow (pathname path : List UInt8) : Bool :=
  pathname.isPrefixOf path &&
    (path[pathname.length]? = some slash || path[pathname.length]? = none)

/-- A full pathname. -/
def join (pathPrefix name : List UInt8) : List UInt8 :=
  pathPrefix ++ slash :: name

/-- The full pathname is not empty, so no unused slot is below it. -/
theorem isBelow_join_nil (pathPrefix name : List UInt8) :
    isBelow (snprintf (join pathPrefix name)).val [] = false := by
  -- The path has a slash in it, so nothing empty is below it.
  have nonempty : (snprintf (join pathPrefix name)).val ≠ [] := by
    simp [snprintf, join, pathMax]
  cases full : (snprintf (join pathPrefix name)).val with
  | nil => exact absurd full nonempty
  | cons byte bytes => rfl

/-- Replaces the beginning of the pathname of a slot that is below the old full pathname. -/
def Slot.rewrite (oldPathPrefix oldName newPathPrefix newName : List UInt8) (slot : Slot) : Slot :=
  let fullPath := snprintf (join oldPathPrefix oldName)
  let newPrefix := snprintf (join newPathPrefix newName)
  if below : isBelow fullPath.val slot.path.val then
    { wd := slot.wd
      path := snprintf (newPrefix.val ++ slot.path.val.drop fullPath.val.length)
      unused := fun negative => by
        rw [(slot.unused negative).2, isBelow_join_nil] at below
        cases below }
  else slot

/-- Fixes the cached pathnames of a directory that was renamed, and of all its subdirectories. -/
def rewriteCachedPaths (cache : Cache) (oldPathPrefix oldName newPathPrefix newName : List UInt8) :
    Cache :=
  cache.map (Slot.rewrite oldPathPrefix oldName newPathPrefix newName)

/--
Removes the watches and cached items of a directory and all its subdirectories.

The result is their number, or nothing when a watch cannot be removed, which ends the loop.
-/
def zapSubtree (rmWatch : Int → Bool) (pathname : List UInt8) : Cache → Option Nat × Cache
  | [] => (some 0, [])
  | slot :: rest =>
    if 0 ≤ slot.wd && isBelow pathname slot.path.val then
      if rmWatch slot.wd then
        let (count, zapped) := zapSubtree rmWatch pathname rest
        (count.map (· + 1), Slot.empty :: zapped)
      else (none, slot :: rest)
    else
      let (count, zapped) := zapSubtree rmWatch pathname rest
      (count, slot :: zapped)

/-- Discards the cache and builds it anew from the directories that `nftw` visits. -/
def reinitialize (visits : List Visit) : Except Exit Cache :=
  watchSubtree [] visits

/-- What the program does with its cache. -/
inductive CacheOp where
  | traverseTree (visit : Visit)
  | rewriteCachedPaths (oldPathPrefix oldName newPathPrefix newName : List UInt8)
  | zapSubtree (rmWatch : Int → Bool) (pathname : List UInt8)
  /-- Marks the slot as unused in which a watch descriptor is found. -/
  | markCacheSlotEmpty (wd : Watch)
  | reinitialize (visits : List Visit)

/-- One operation on the cache. -/
def CacheOp.apply (cache : Cache) : CacheOp → Except Exit Cache
  | .traverseTree visit => Inotify.traverseTree cache visit
  | .rewriteCachedPaths oldPathPrefix oldName newPathPrefix newName =>
    .ok (Inotify.rewriteCachedPaths cache oldPathPrefix oldName newPathPrefix newName)
  | .zapSubtree rmWatch pathname => .ok (Inotify.zapSubtree rmWatch pathname cache).2
  | .markCacheSlotEmpty wd =>
    .ok <| match findWatch cache wd.val with
      | some slot => Inotify.markCacheSlotEmpty cache slot
      | none => cache
  | CacheOp.reinitialize visits => Inotify.reinitialize visits

/-- Operations on the cache, one after the other, as long as the program does not exit. -/
def applyAll (cache : Cache) (ops : List CacheOp) : Except Exit Cache :=
  ops.foldlM CacheOp.apply cache

end SysProg.Inotify
