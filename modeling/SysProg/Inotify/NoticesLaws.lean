import SysProg.Inotify.CacheLaws
import SysProg.Inotify.Following

/-! What the program makes of each event that another process causes. -/

namespace SysProg.Inotify.Following

variable {opts : Options} {world : World} {program : Program} {next : Option InotifyEvent}
  {firstTry : Bool} {wd : Descriptor} {name : DirName} {path : Pathname}

/-- A number that an event can carry is read back. -/
theorem toInt_ofInt (wd : Descriptor) : (Int32.ofInt wd.val.val).toInt = wd.val.val := by
  -- A descriptor of the kernel fits in 32 bits.
  have low := wd.val.property
  have high := wd.property
  apply Int32.toInt_ofInt_of_le
  · omega
  · exact high

/-- A descriptor is never the one of an overflow. -/
theorem ofInt_ne (wd : Descriptor) : Int32.ofInt wd.val.val ≠ -1 := by
  -- It is not negative either.
  intro same
  have read := toInt_ofInt wd
  have low := wd.val.property
  rw [same] at read
  have minus : (-1 : Int32).toInt = -1 := by decide
  omega

/-- The padding is not part of the name. -/
theorem takeWhile_padded (name : DirName) : (padded name).takeWhile (· ≠ 0) = name.val := by
  -- A name has no null byte, and the padding has no other.
  have plain : ∀ byte ∈ name.val, decide (byte ≠ 0) = true := by
    intro byte mem
    apply decide_eq_true
    rintro rfl
    exact name.property.2.2.1 mem
  rw [padded, List.takeWhile_append_of_pos plain, List.takeWhile_replicate]
  simp

/-- A watch descriptor that is cached is found with its pathname. -/
theorem findWatch_of_watched {cache : Cache} (distinct : (table cache).Distinct)
    (cached : watched cache wd.val = some path) :
    ∃ index slot, findWatch cache wd.val.val = some index ∧ cache[index]? = some slot ∧
      slot.path = path := by
  -- What the map holds is found by the search.
  rw [watched_eq_findWatch distinct, Option.bind_eq_some_iff] at cached
  obtain ⟨index, found, held⟩ := cached
  obtain ⟨slot, there, same⟩ := Option.map_eq_some_iff.mp held
  exact ⟨index, slot, found, there, same⟩

/-- A watch descriptor is found exactly if it is cached. -/
theorem isSome_findWatch_iff {cache : Cache} (distinct : (table cache).Distinct) (wd : Watch) :
    (findWatch cache wd.val).isSome ↔ watched cache wd ≠ none := by
  rw [watched_eq_findWatch distinct]
  -- A slot that is found has a path in it.
  cases found : findWatch cache wd.val with
  | none => simp
  | some index =>
    obtain ⟨slot, there, _⟩ := table_of_findWatch found
    simp [there]

/-- A pathname is in the cache exactly if it is cached for some watch descriptor. -/
theorem pathnameInCache_iff {cache : Cache} (distinct : (table cache).Distinct)
    {pathname : List UInt8} :
    pathnameInCache cache pathname = true ↔
      ∃ wd path, watched cache wd = some path ∧ path.val = pathname := by
  rw [pathnameInCache, pathnameToCacheSlot, List.findIdx?_isSome, List.any_eq_true]
  -- A slot that is found is an entry of the map, and an entry of the map has a slot.
  constructor
  · rintro ⟨slot, mem, found⟩
    obtain ⟨live, same⟩ := of_decide_eq_true found
    have cached : watched cache ⟨slot.wd, live⟩ = some slot.path :=
      (watched_eq_some_iff distinct).mpr ⟨slot, mem, rfl, rfl⟩
    exact ⟨⟨slot.wd, live⟩, slot.path, cached, same⟩
  · rintro ⟨wd, path, cached, same⟩
    obtain ⟨slot, mem, wd_, rfl⟩ := (watched_eq_some_iff distinct).mp cached
    have live : 0 ≤ slot.wd := wd_ ▸ wd.property
    exact ⟨slot, mem, decide_eq_true ⟨live, same⟩⟩

/-- An event is handled, with this effect on the cache, or a check of the cache ends the program. -/
def Handles (opts : Options) (program : Program) (map : WatchMap) (pair : Bool)
    (result : Except Exit Outcome) : Prop :=
  match result with
  | .error _ => opts.checkCache = true
  | .ok outcome =>
    outcome.handling.reinitialized = false ∧ outcome.handling.partner.isSome = pair ∧
      (table outcome.program.cache).Distinct ∧ watched outcome.program.cache = map ∧
        outcome.program.rootDirPaths = program.rootDirPaths ∧
          outcome.program.inotifyFd = program.inotifyFd

/-- The check at the end of the handling changes nothing. -/
theorem finish_handles {after : Program} {handling : Handling} {evLen : Int} {map : WatchMap}
    (keeps : handling.reinitialized = false) (distinct : (table after.cache).Distinct)
    (shows_ : watched after.cache = map) (roots : after.rootDirPaths = program.rootDirPaths)
    (same : after.inotifyFd = program.inotifyFd) :
    Handles opts program map handling.partner.isSome (finish opts world after handling evLen) := by
  rw [finish]
  -- The check at the end may abort the program; otherwise what was handled is returned.
  split
  next exits => exact (Bool.and_eq_true_iff.mp exits).1
  · exact ⟨keeps, rfl, distinct, shows_, roots, same⟩

/-- The event on a watched directory is handled with the slot of the directory. -/
theorem handleNextEvent_eq {ev : InotifyEvent} {index : Nat} (wd_ : ev.wd = Int32.ofInt wd.val.val)
    (plain : ev.has inIgnored = false) (found : findWatch program.cache wd.val.val = some index) :
    handleNextEvent opts world program ev next firstTry =
      handleEvent opts world program ev (some index) next firstTry := by
  -- The event has a watch and is not IN_IGNORED, so the watch is looked up.
  have watched_ : (ev.wd ≠ -1 && !ev.has inIgnored) = true := by
    rw [wd_, plain]
    simp [ofInt_ne wd]
  rw [handleNextEvent, if_pos watched_, wd_, toInt_ofInt, findWatchChecked, found]
  rfl

/-- The flags of an event are those of its mask. -/
theorem has_of_mask {ev : InotifyEvent} {mask : UInt32} (masked : ev.mask = mask)
    (flags : UInt32) : ev.has flags = decide (mask &&& flags ≠ 0) := by
  subst masked
  rfl

/-- The flags of a new directory. -/
theorem has_create : (Notice.create wd name).event.has inIgnored = false ∧
    ((Notice.create wd name).event.has inIsdir &&
      (Notice.create wd name).event.has (inCreate ||| inMovedTo)) = true := by
  simp only [has_of_mask (show (Notice.create wd name).event.mask = inCreate ||| inIsdir from rfl)]
  decide

/-- The flags of a deleted directory. -/
theorem has_deleteSelf (wd : Descriptor) : (Notice.deleteSelf wd).event.has inIgnored = false ∧
    ((Notice.deleteSelf wd).event.has inIsdir &&
      (Notice.deleteSelf wd).event.has (inCreate ||| inMovedTo)) = false ∧
    (Notice.deleteSelf wd).event.has inDeleteSelf = true := by
  -- The mask of the event has one bit.
  simp only [has_of_mask (show (Notice.deleteSelf wd).event.mask = inDeleteSelf from rfl)]
  decide

/-- The flags of a watch that is gone. -/
theorem has_ignored (wd : Descriptor) : (Notice.ignored wd).event.has inIgnored = true ∧
    ((Notice.ignored wd).event.has inIsdir &&
      (Notice.ignored wd).event.has (inCreate ||| inMovedTo)) = false ∧
    (Notice.ignored wd).event.has inDeleteSelf = false ∧
    (Notice.ignored wd).event.isMovedFromDir = false ∧
    (Notice.ignored wd).event.has inQOverflow = false ∧
    (Notice.ignored wd).event.has inUnmount = false ∧
    (Notice.ignored wd).event.has inMoveSelf = false := by
  -- All conditions of the chain are decided by the mask, and it has one bit.
  have moved : (Notice.ignored wd).event.isMovedFromDir = false := by
    show decide (inIgnored &&& (inMovedFrom ||| inIsdir) = inMovedFrom ||| inIsdir) = false
    decide
  simp only [has_of_mask (show (Notice.ignored wd).event.mask = inIgnored from rfl), moved]
  decide

/-- The flags of the two events of a rename. -/
theorem has_rename (wd : Descriptor) (name : DirName) (cookie : UInt32) :
    (Notice.movedFrom wd name cookie).event.has inIgnored = false ∧
    ((Notice.movedFrom wd name cookie).event.has inIsdir &&
      (Notice.movedFrom wd name cookie).event.has (inCreate ||| inMovedTo)) = false ∧
    (Notice.movedFrom wd name cookie).event.has inDeleteSelf = false ∧
    (Notice.movedFrom wd name cookie).event.isMovedFromDir = true ∧
    (Notice.movedTo wd name cookie).event.has inMovedTo = true := by
  -- The two bits of the mask are both there.
  have moved : (Notice.movedFrom wd name cookie).event.isMovedFromDir = true := by
    show decide ((inMovedFrom ||| inIsdir) &&& (inMovedFrom ||| inIsdir) =
      inMovedFrom ||| inIsdir) = true
    decide
  have from_ : (Notice.movedFrom wd name cookie).event.mask = inMovedFrom ||| inIsdir := rfl
  have to_ : (Notice.movedTo wd name cookie).event.mask = inMovedTo ||| inIsdir := rfl
  -- The other conditions ask for a bit that neither mask has.
  simp only [moved, has_of_mask from_, has_of_mask to_]
  decide

section Create

/-- A subtree is to be walked if the new directory has not been cached. -/
theorem newSubtree_create (distinct : (table program.cache).Distinct)
    (cached : watched program.cache wd.val = some path) :
    newSubtree program (Notice.create wd name).event =
      if pathnameInCache program.cache (fullPathOf path.val name.val) then none
      else some (fullPathOf path.val name.val) := by
  -- The directory that the event names is cached, so its slot is found and holds its path.
  obtain ⟨index, slot, found, there, rfl⟩ := findWatch_of_watched distinct cached
  -- The name and the watch are read back from the event as the kernel wrote them.
  have read : (Notice.create wd name).event.nameString = name.val := takeWhile_padded name
  have number : (Notice.create wd name).event.wd.toInt = wd.val.val := toInt_ofInt wd
  rw [newSubtree, if_pos has_create.2, number, found, read]
  simp only [Option.bind_eq_bind, Option.bind_some, there]

/-- What is done about a new directory, when the pathname of its parent has been found. -/
theorem handleNextEvent_create (distinct : (table program.cache).Distinct)
    (cached : watched program.cache wd.val = some path) :
    handleNextEvent opts world program (Notice.create wd name).event next firstTry =
      (if pathnameInCache program.cache (fullPathOf path.val name.val) then .ok program.cache
        else watchSubtree program.cache
          (world.visits program.eventCnt (fullPathOf path.val name.val))).bind fun cache =>
        finish opts world { program with cache := cache }
          ⟨(Notice.create wd name).event, none, .created, false⟩
          (Notice.create wd name).event.size := by
  -- The directory that the event names is cached, so its slot is found and holds its path.
  obtain ⟨index, slot, found, there, rfl⟩ := findWatch_of_watched distinct cached
  have read : (Notice.create wd name).event.nameString = name.val := takeWhile_padded name
  -- The first condition of the chain is true.
  rw [handleNextEvent_eq rfl has_create.1 found, handleEvent, if_pos has_create.2, handleCreate,
    cachedPath, Option.bind_some, there, read]
  rfl

/-- A new directory that is cached already needs nothing to be done. -/
theorem handles_create_known (distinct : (table program.cache).Distinct)
    (cached : watched program.cache wd.val = some path)
    (known : pathnameInCache program.cache (fullPathOf path.val name.val) = true) :
    Handles opts program (watched program.cache) false
      (handleNextEvent opts world program (Notice.create wd name).event next firstTry) := by
  -- The path is in the cache, so nothing is watched anew.
  rw [handleNextEvent_create distinct cached, if_pos known]
  exact finish_handles rfl distinct rfl rfl rfl

/-- A new directory is watched with all that `nftw` visits below it. -/
theorem handles_create_new (distinct : (table program.cache).Distinct)
    (cached : watched program.cache wd.val = some path)
    (new : pathnameInCache program.cache (fullPathOf path.val name.val) = false) {cache : Cache}
    (visited : watchSubtree program.cache
      (world.visits program.eventCnt (fullPathOf path.val name.val)) = .ok cache) :
    Handles opts program (watched cache) false
      (handleNextEvent opts world program (Notice.create wd name).event next firstTry) := by
  -- The new pathname is not in the cache, so the subtree is visited.
  rw [handleNextEvent_create distinct cached, if_neg (Bool.eq_false_iff.mp new), visited]
  exact finish_handles rfl (watchSubtree_watched distinct visited).1 rfl rfl rfl

end Create

/-- A deleted directory, which is no root directory, is removed from the cache. -/
theorem handles_deleteSelf (distinct : (table program.cache).Distinct)
    (cached : watched program.cache wd.val = some path)
    (inner : some path.val ∉ program.rootDirPaths) :
    Handles opts program (Function.update (watched program.cache) wd.val none) false
      (handleNextEvent opts world program (Notice.deleteSelf wd).event next firstTry) := by
  obtain ⟨index, slot, found, there, rfl⟩ := findWatch_of_watched distinct cached
  obtain ⟨plain, file, self⟩ := has_deleteSelf wd
  -- The directory is no root, so the array of roots stays.
  have kept : program.isRootDirPath slot.path.val = false := decide_eq_false inner
  obtain ⟨apart, gone⟩ := markCacheSlotEmpty_watched distinct found
  have read : cachedPath program.cache (some index) = .ok slot.path.val := by
    rw [cachedPath, Option.bind_some, there]
  -- Only the second condition of the chain is true.
  rw [handleNextEvent_eq rfl plain found, handleEvent, file, self, handleDeleteSelf, read]
  simp only [Bool.false_eq_true, if_false, if_true, bind, Except.bind, kept]
  exact finish_handles rfl apart gone rfl rfl

/-- Nothing is done about a watch that is gone. -/
theorem handles_ignored (distinct : (table program.cache).Distinct) :
    Handles opts program (watched program.cache) false
      (handleNextEvent opts world program (Notice.ignored wd).event next firstTry) := by
  -- The watch is not looked up, and every condition of the chain is false.
  obtain ⟨ignored, file, self, moved, full, gone, root⟩ := has_ignored wd
  rw [handleNextEvent, ignored]
  simp only [Bool.not_true, Bool.and_false, Bool.false_eq_true, if_false]
  rw [handleEvent, file, self, moved, full, gone, root]
  exact finish_handles rfl distinct rfl rfl rfl

/-- Both events of a rename are handled at once, by rewriting the pathnames. -/
theorem handles_rename {one two : Descriptor} {oldPath newPath : Pathname}
    {oldName newName : DirName} {cookie : UInt32} (distinct : (table program.cache).Distinct)
    (first : watched program.cache one.val = some oldPath)
    (second : watched program.cache two.val = some newPath) :
    Handles opts program (fun wd => (watched program.cache wd).map
        (renamed oldPath.val oldName.val newPath.val newName.val)) true
      (handleNextEvent opts world program (Notice.movedFrom one oldName cookie).event
        (some (Notice.movedTo two newName cookie).event) firstTry) := by
  -- Both directories that the events name are cached, so both slots are found.
  obtain ⟨index, slot, found, there, rfl⟩ := findWatch_of_watched distinct first
  obtain ⟨index_, slot_, found_, there_, rfl⟩ := findWatch_of_watched distinct second
  obtain ⟨plain, file, self, moved, -⟩ := has_rename one oldName cookie
  have arrived : (Notice.movedTo two newName cookie).event.has inMovedTo = true :=
    (has_rename two newName cookie).2.2.2.2
  -- The second event is the partner of the first one.
  have pair : ((Notice.movedTo two newName cookie).event.has inMovedTo &&
      decide ((Notice.movedTo two newName cookie).event.cookie =
        (Notice.movedFrom one oldName cookie).event.cookie)) = true := by
    rw [arrived]
    exact decide_eq_true rfl
  have read : (Notice.movedFrom one oldName cookie).event.nameString = oldName.val :=
    takeWhile_padded oldName
  have read_ : (Notice.movedTo two newName cookie).event.nameString = newName.val :=
    takeWhile_padded newName
  have number : (Notice.movedTo two newName cookie).event.wd.toInt = two.val.val := toInt_ofInt two
  -- The paths of the two slots are read.
  have old : cachedPath program.cache (some index) = .ok slot.path.val := by
    rw [cachedPath, Option.bind_some, there]
  have new : cachedPath program.cache (some index_) = .ok slot_.path.val := by
    rw [cachedPath, Option.bind_some, there_]
  -- Only the third condition of the chain is true, and it leads to the rename.
  rw [handleNextEvent_eq rfl plain found, handleEvent, file, self, moved]
  simp only [Bool.false_eq_true, if_false, if_true, handleMovedFrom, pair]
  rw [handleRename, number, findWatchChecked, found_]
  simp only [bind, Except.bind, old, new, read, read_]
  -- Rewriting the slots is mapping the paths of the table.
  have shows_ := table_rewriteCachedPaths program.cache slot.path.val oldName.val slot_.path.val
    newName.val
  refine finish_handles rfl ?_ ?_ rfl rfl
  · show (table (rewriteCachedPaths _ _ _ _ _)).Distinct
    rw [shows_]
    exact distinct.map _
  · funext wd
    show watched (rewriteCachedPaths _ _ _ _ _) wd = _
    rw [watched, shows_]
    exact SlotTable.lookup_map _ wd

/-- Only the event of a new directory calls for a walk. -/
theorem newSubtree_other {notice : Notice}
    (other : (notice.event.has inIsdir && notice.event.has (inCreate ||| inMovedTo)) = false) :
    newSubtree program notice.event = none := by
  rw [newSubtree, other]
  rfl

end SysProg.Inotify.Following
