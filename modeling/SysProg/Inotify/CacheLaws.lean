import SysProg.Inotify.Cache

/-! The cache is a finite map from watch descriptors to pathnames. -/

namespace SysProg.Inotify

/-- What a slot holds, if anything. -/
def Slot.entry (slot : Slot) : Option (Watch × Pathname) :=
  if live : 0 ≤ slot.wd then some (⟨slot.wd, live⟩, slot.path) else none

/-- The table of what the slots hold. -/
def table (cache : Cache) : SlotTable Watch Pathname :=
  cache.map Slot.entry

/-- The pathname that is cached for a watch descriptor. -/
def watched (cache : Cache) : Watch → Option Pathname :=
  (table cache).lookup

/-- An unused slot holds nothing. -/
@[simp] theorem entry_empty : Slot.empty.entry = none := by
  simp [Slot.entry, Slot.empty]

/-- A slot that was filled holds its item. -/
@[simp] theorem entry_of (wd : Watch) (path : Pathname) :
    (Slot.of wd path).entry = some (wd, path) := by
  simp [Slot.entry, Slot.of, wd.property]

/-- The slots that hold an item of a watch descriptor are those with the watch descriptor. -/
theorem entry_eq_some_iff {slot : Slot} {wd : Watch} {path : Pathname} :
    slot.entry = some (wd, path) ↔ slot.wd = wd.val ∧ slot.path = path := by
  rw [Slot.entry]
  -- A slot with a watch holds an entry, and a free one has a negative number.
  split
  · simp [Subtype.ext_iff]
  · rename_i unused
    have other : slot.wd ≠ wd.val := fun same => unused (same ▸ wd.property)
    simp [other]

/-- The slots that hold nothing are those with the watch descriptor -1. -/
theorem entry_eq_none_iff {slot : Slot} : slot.entry = none ↔ slot.wd = -1 := by
  rw [Slot.entry]
  -- Among the slots without a watch there is only the number -1.
  split
  · rename_i live
    simp only [reduceCtorEq, false_iff]
    omega
  · rename_i unused
    simp [(slot.unused (not_le.mp unused)).1]

/-- What the table has at an index is what the slot holds. -/
theorem table_getElem? {cache : Cache} {index : Nat} {content : Option (Watch × Pathname)} :
    (table cache)[index]? = some content ↔
      ∃ slot, cache[index]? = some slot ∧ slot.entry = content := by
  rw [table, List.getElem?_map, Option.map_eq_some_iff]

/-- A watch descriptor that is found is held by the slot. -/
theorem table_of_findWatch {cache : Cache} {wd : Watch} {index : Nat}
    (found : findWatch cache wd.val = some index) :
    ∃ slot, cache[index]? = some slot ∧ slot.wd = wd.val ∧
      (table cache)[index]? = some (some (wd, slot.path)) := by
  -- The search has found a slot with this number, and the table has its entry there.
  obtain ⟨there, same, _⟩ := List.findIdx?_eq_some_iff_getElem.mp found
  have wd_ : cache[index].wd = wd.val := by simpa using same
  exact ⟨_, List.getElem?_eq_getElem there, wd_, table_getElem?.mpr
    ⟨_, List.getElem?_eq_getElem there, entry_eq_some_iff.mpr ⟨wd_, rfl⟩⟩⟩

/-- A watch descriptor that is not found is not cached. -/
theorem watched_of_not_findWatch {cache : Cache} {wd : Watch}
    (absent : findWatch cache wd.val = none) : watched cache wd = none := by
  -- An entry of the map would be in a slot that the search has passed.
  refine SlotTable.lookup_eq_none_iff.mpr fun path mem => ?_
  obtain ⟨slot, there, held⟩ := List.mem_map.mp (SlotTable.mem_entries.mp mem)
  have other := List.findIdx?_eq_none_iff.mp absent slot there
  simp [(entry_eq_some_iff.mp held).1] at other

/-- What is cached for a watch descriptor is what some slot holds. -/
theorem watched_eq_some_iff {cache : Cache} (distinct : (table cache).Distinct) {wd : Watch}
    {path : Pathname} :
    watched cache wd = some path ↔ ∃ slot ∈ cache, slot.wd = wd.val ∧ slot.path = path := by
  rw [watched, SlotTable.lookup_eq_some_iff distinct, SlotTable.mem_entries, table, List.mem_map]
  simp only [entry_eq_some_iff]

/-- Looking for a watch descriptor is looking it up in the map. -/
theorem watched_eq_findWatch {cache : Cache} (distinct : (table cache).Distinct) (wd : Watch) :
    watched cache wd = (findWatch cache wd.val).bind fun index => cache[index]?.map Slot.path := by
  -- The search finds the slot of the map's entry, as there is no other one.
  cases found : findWatch cache wd.val with
  | none => exact watched_of_not_findWatch found
  | some index =>
    obtain ⟨slot, there, same, _⟩ := table_of_findWatch found
    rw [Option.bind_some, there, Option.map_some]
    exact (watched_eq_some_iff distinct).mpr ⟨slot, List.mem_of_getElem? there, same, rfl⟩

/-- An empty cache holds nothing twice. -/
theorem distinct_nil : (table []).Distinct :=
  List.nodup_nil

/-- No two slots hold the same watch descriptor. -/
theorem slot_unique {cache : Cache} (distinct : (table cache).Distinct) {first second : Nat}
    {one two : Slot} (left : cache[first]? = some one) (right : cache[second]? = some two)
    (live : 0 ≤ one.wd) (same : one.wd = two.wd) : first = second := by
  -- Two slots in use with one number would be two entries with one key.
  have held : one.entry = some (⟨one.wd, live⟩, one.path) := entry_eq_some_iff.mpr ⟨rfl, rfl⟩
  have held_ : two.entry = some (⟨one.wd, live⟩, two.path) :=
    entry_eq_some_iff.mpr ⟨same.symm, rfl⟩
  exact distinct.slot_unique (table_getElem?.mpr ⟨one, left, held⟩)
    (table_getElem?.mpr ⟨two, right, held_⟩)

/-- The free slot is unused, and the cache has at most grown by unused slots. -/
theorem findEmptyCacheSlot_grows (cache : Cache) :
    (∃ count, (findEmptyCacheSlot cache).1 = cache ++ List.replicate count Slot.empty) ∧
      (table (findEmptyCacheSlot cache).1)[(findEmptyCacheSlot cache).2]? = some none := by
  rw [findEmptyCacheSlot]
  -- A free slot is reused; without one, the cache grows by allocIncr slots, and the first of them
  -- is it.
  cases found : cache.findIdx? fun slot => slot.wd = -1 with
  | some slot =>
    obtain ⟨there, unused, _⟩ := List.findIdx?_eq_some_iff_getElem.mp found
    refine ⟨⟨0, by simp⟩, table_getElem?.mpr ⟨_, List.getElem?_eq_getElem there, ?_⟩⟩
    exact entry_eq_none_iff.mpr (by simpa using unused)
  | none =>
    refine ⟨⟨allocIncr, rfl⟩, table_getElem?.mpr ⟨Slot.empty, ?_, entry_empty⟩⟩
    -- The new slots start where the old ones end.
    rw [List.getElem?_append_right (le_refl _), Nat.sub_self]
    rfl

/-- A slot that holds an item is neither overwritten nor dropped when another item is added. -/
theorem addWatchToCache_keeps {cache : Cache} {wd : Watch} {pathname : Pathname} {index : Nat}
    {slot : Slot} (there : cache[index]? = some slot) (live : 0 ≤ slot.wd) :
    (addWatchToCache cache wd pathname).1[index]? = some slot := by
  obtain ⟨⟨count, grown⟩, free⟩ := findEmptyCacheSlot_grows cache
  -- Growing the cache leaves what it held where it was.
  have stays : (findEmptyCacheSlot cache).1[index]? = some slot := by
    rw [grown, List.getElem?_append_left (List.getElem?_eq_some_iff.mp there).1]
    exact there
  -- The slot that is written is free, and this one is not.
  have apart : (findEmptyCacheSlot cache).2 ≠ index := by
    intro same
    obtain ⟨taken, held, nothing⟩ := table_getElem?.mp free
    rw [same, stays] at held
    cases held
    have unused := entry_eq_none_iff.mp nothing
    omega
  rw [addWatchToCache]
  exact (List.getElem?_set_ne apart).trans stays

/-- The table after an item has been added. -/
theorem table_addWatchToCache (cache : Cache) (wd : Watch) (pathname : Pathname) :
    ∃ count slot, (table cache ++ List.replicate count none)[slot]? = some none ∧
      table (addWatchToCache cache wd pathname).1 =
        (table cache ++ List.replicate count none).set slot (some (wd, pathname)) := by
  obtain ⟨⟨count, grown⟩, free⟩ := findEmptyCacheSlot_grows cache
  -- The table grows as the cache does, by entries that hold nothing.
  have same : table (findEmptyCacheSlot cache).1 = table cache ++ List.replicate count none := by
    rw [grown, table, List.map_append, List.map_replicate, entry_empty]
    rfl
  refine ⟨count, (findEmptyCacheSlot cache).2, same ▸ free, ?_⟩
  rw [← same, addWatchToCache, table, List.map_set, entry_of]
  rfl

/-- A map from watch descriptors to pathnames. -/
abbrev WatchMap := Watch → Option Pathname

/-- Inserts a watch descriptor that is not in the map yet. -/
def WatchMap.insertIfAbsent (map : WatchMap) (wd : Watch) (pathname : Pathname) : WatchMap :=
  if (map wd).isSome then map else Function.update map wd (some pathname)

/-- What a visit of `nftw` does to the map. -/
def WatchMap.visit (map : WatchMap) (visit : Visit) : WatchMap :=
  match visit.isDir, visit.addWatch with
  | true, .watching wd => map.insertIfAbsent wd visit.pathname
  | _, _ => map

/-- Adding a watch descriptor that is not cached inserts it into the map. -/
theorem addWatchToCache_watched {cache : Cache} (distinct : (table cache).Distinct) {wd : Watch}
    (absent : watched cache wd = none) (pathname : Pathname) :
    (table (addWatchToCache cache wd pathname).1).Distinct ∧
      watched (addWatchToCache cache wd pathname).1 =
        Function.update (watched cache) wd (some pathname) := by
  obtain ⟨count, slot, free, added⟩ := table_addWatchToCache cache wd pathname
  -- Empty slots add nothing, so the table before and after the growth shows the same map.
  have same := SlotTable.entries_grow (table cache) count
  have distinct_ : SlotTable.Distinct (table cache ++ List.replicate count none) := by
    rw [SlotTable.Distinct, same]
    exact distinct
  have lookup : SlotTable.lookup (table cache ++ List.replicate count none) = watched cache :=
    SlotTable.lookup_perm distinct_ (by rw [same])
  -- One entry is put into a free slot of it.
  rw [watched, added, ← lookup]
  rw [← lookup] at absent
  exact ⟨distinct_.put free absent pathname, SlotTable.lookup_put distinct_ free absent pathname⟩

/-- A visit keeps the watch descriptors distinct, and changes the map as it should. -/
theorem traverseTree_watched {cache next : Cache} (distinct : (table cache).Distinct)
    {visit : Visit} (ran : traverseTree cache visit = .ok next) :
    (table next).Distinct ∧ watched next = WatchMap.visit (watched cache) visit := by
  obtain ⟨pathname, isDir, addWatch⟩ := visit
  rw [traverseTree] at ran
  -- As in traverseTree(): what is no directory is passed, and so is one that has gone meanwhile.
  cases isDir with
  | false => cases ran; exact ⟨distinct, rfl⟩
  | true =>
    cases addWatch with
    | enoent => cases ran; exact ⟨distinct, rfl⟩
    | failed => cases ran
    | watching wd =>
      simp only [Bool.not_true, Bool.false_eq_true, if_false] at ran
      simp only [WatchMap.visit, WatchMap.insertIfAbsent]
      -- A directory that is watched already keeps its slot.
      cases found : findWatch cache wd.val with
      | some index =>
        rw [found] at ran
        cases ran
        obtain ⟨slot, there, _⟩ := table_of_findWatch found
        have known : (watched cache wd).isSome := by
          rw [watched_eq_findWatch distinct, found, Option.bind_some, there]
          rfl
        exact ⟨distinct, (if_pos known).symm⟩
      | none =>
        rw [found] at ran
        cases ran
        -- Any other directory gets one.
        have absent := watched_of_not_findWatch found
        rw [absent, if_neg (by simp)]
        exact addWatchToCache_watched distinct absent pathname

/-- A visit neither overwrites nor drops a slot that holds an item. -/
theorem traverseTree_keeps {cache next : Cache} {visit : Visit}
    (ran : traverseTree cache visit = .ok next) {index : Nat} {slot : Slot}
    (there : cache[index]? = some slot) (live : 0 ≤ slot.wd) : next[index]? = some slot := by
  -- Only the branch that adds a watch writes to the cache, and it writes into a free slot.
  rw [traverseTree] at ran
  split at ran
  · cases ran; exact there
  · split at ran
    · cases ran; exact there
    · cases ran
    · split at ran
      · cases ran; exact there
      · cases ran; exact addWatchToCache_keeps there live

/-- Visiting a subtree does to the map what its visits do. -/
theorem watchSubtree_watched {cache next : Cache} (distinct : (table cache).Distinct)
    {visits : List Visit} (ran : watchSubtree cache visits = .ok next) :
    (table next).Distinct ∧ watched next = visits.foldl WatchMap.visit (watched cache) := by
  -- By induction on the visits, each adding what one visit adds.
  induction visits generalizing cache with
  | nil => cases ran; exact ⟨distinct, rfl⟩
  | cons visit visits ih =>
    rw [watchSubtree, List.foldlM_cons] at ran
    cases first : traverseTree cache visit with
    | error exit => rw [first] at ran; cases ran
    | ok middle =>
      rw [first] at ran
      obtain ⟨distinct_, visited⟩ := traverseTree_watched distinct first
      rw [List.foldl_cons, ← visited]
      exact ih distinct_ ran

/-- The new pathname of a directory when a directory is renamed. -/
def renamed (oldPathPrefix oldName newPathPrefix newName : List UInt8) (path : Pathname) :
    Pathname :=
  if isBelow (snprintf (join oldPathPrefix oldName)).val path.val then
    snprintf ((snprintf (join newPathPrefix newName)).val ++
      path.val.drop (snprintf (join oldPathPrefix oldName)).val.length)
  else path

/-- Rewriting a slot changes the pathname of its item only. -/
theorem entry_rewrite (oldPathPrefix oldName newPathPrefix newName : List UInt8) (slot : Slot) :
    (slot.rewrite oldPathPrefix oldName newPathPrefix newName).entry =
      slot.entry.map (Prod.map id (renamed oldPathPrefix oldName newPathPrefix newName)) := by
  rw [Slot.rewrite]
  -- The path is rewritten where it lies below the old name, whether or not the slot is in use.
  split
  · rename_i below
    rw [Slot.entry, Slot.entry]
    split <;> simp [renamed, below]
  · rename_i apart
    rw [Slot.entry]
    split <;> simp [renamed, apart]

/-- The table after a rename. -/
theorem table_rewriteCachedPaths (cache : Cache)
    (oldPathPrefix oldName newPathPrefix newName : List UInt8) :
    table (rewriteCachedPaths cache oldPathPrefix oldName newPathPrefix newName) =
      (table cache).map
        (Option.map (Prod.map id (renamed oldPathPrefix oldName newPathPrefix newName))) := by
  -- Every slot is rewritten by itself, so the table is mapped.
  rw [table, table, rewriteCachedPaths, List.map_map, List.map_map]
  exact List.map_congr_left fun slot _ => entry_rewrite _ _ _ _ slot

/-- Zapping a subtree removes the items below the pathname from a map, all or up to a failure. -/
structure Zapped (rmWatch : Int → Bool) (pathname : List UInt8) (map next : WatchMap)
    (count : Option Nat) : Prop where
  /-- Some watch descriptors are removed. -/
  removed : ∃ gone : List Watch, gone.Nodup ∧
    (∀ wd, next wd = if wd ∈ gone then none else map wd) ∧
    (∀ wd ∈ gone, rmWatch wd.val = true ∧ ∃ path, map wd = some path ∧ isBelow pathname path.val) ∧
    ∀ total, count = some total → gone.length = total
  /-- The count tells that nothing is left below the pathname. -/
  complete : ∀ total, count = some total → ∀ wd path, next wd = some path →
    isBelow pathname path.val = false
  /-- There is no count when a watch could not be removed, whose item is left. -/
  failed : count = none → ∃ wd path, next wd = some path ∧ isBelow pathname path.val ∧
    rmWatch wd.val = false

/-- The entries of a cache, its first slot first. -/
theorem entries_cons (slot : Slot) (cache : Cache) :
    (table (slot :: cache)).entries = slot.entry.toList ++ (table cache).entries := by
  rw [table, List.map_cons, SlotTable.entries, List.filterMap_cons]
  cases slot.entry <;> rfl

/-- Zapping a subtree removes entries below the pathname, all of them or up to a failure. -/
theorem zapSubtree_entries (rmWatch : Int → Bool) (pathname : List UInt8) (cache : Cache) :
    ∃ gone : List (Watch × Pathname),
      (table cache).entries.Perm (gone ++ (table (zapSubtree rmWatch pathname cache).2).entries) ∧
      (∀ entry ∈ gone, rmWatch entry.1.val = true ∧ isBelow pathname entry.2.val) ∧
      (∀ total, (zapSubtree rmWatch pathname cache).1 = some total → gone.length = total ∧
        ∀ entry ∈ (table (zapSubtree rmWatch pathname cache).2).entries,
          isBelow pathname entry.2.val = false) ∧
      ((zapSubtree rmWatch pathname cache).1 = none →
        ∃ entry ∈ (table (zapSubtree rmWatch pathname cache).2).entries,
          isBelow pathname entry.2.val ∧ rmWatch entry.1.val = false) := by
  induction cache with
  | nil =>
    refine ⟨[], .refl _, nofun, fun total done => ⟨Option.some.inj done, nofun⟩, nofun⟩
  | cons slot rest ih =>
    obtain ⟨gone, removed, zapped, complete, failed⟩ := ih
    rw [zapSubtree]
    split
    -- A live slot at or below `pathname` is the one that `inotify_rm_watch` is called for.
    · rename_i target
      obtain ⟨live, below⟩ := Bool.and_eq_true_iff.mp target
      have held : slot.entry = some (⟨slot.wd, of_decide_eq_true live⟩, slot.path) :=
        entry_eq_some_iff.mpr ⟨rfl, rfl⟩
      split
      · rename_i answer
        refine ⟨(⟨slot.wd, of_decide_eq_true live⟩, slot.path) :: gone, ?_, ?_, ?_, ?_⟩
        · rw [entries_cons, entries_cons, held, entry_empty]
          exact removed.cons _
        · intro entry mem
          rcases List.mem_cons.mp mem with rfl | mem
          · exact ⟨answer, below⟩
          · exact zapped entry mem
        · intro total done
          obtain ⟨count, done_, rfl⟩ := Option.map_eq_some_iff.mp done
          rw [entries_cons, entry_empty]
          exact ⟨congrArg (· + 1) (complete count done_).1, (complete count done_).2⟩
        · intro stopped
          rw [entries_cons, entry_empty]
          exact failed (Option.map_eq_none_iff.mp stopped)
      -- The search stops here with the entry still in the cache.
      · rename_i refused
        refine ⟨[], .refl _, nofun, nofun, fun _ => ?_⟩
        rw [entries_cons, held]
        exact ⟨_, List.mem_cons_self, below, by simpa using refused⟩
    -- A slot that is empty or lies elsewhere is kept.
    · rename_i other
      have apart : ∀ entry ∈ slot.entry.toList, isBelow pathname entry.2.val = false := by
        rintro ⟨wd, path⟩ mem
        obtain ⟨same, rfl⟩ := entry_eq_some_iff.mp (Option.mem_toList.mp mem)
        have live : 0 ≤ slot.wd := same ▸ wd.property
        simpa [live] using other
      refine ⟨gone, ?_, zapped, ?_, ?_⟩
      · rw [entries_cons, entries_cons]
        exact (removed.append_left _).trans (by
          rw [← List.append_assoc, ← List.append_assoc]
          exact List.perm_append_comm.append_right _)
      · intro total done
        refine ⟨(complete total done).1, fun entry mem => ?_⟩
        rw [entries_cons] at mem
        rcases List.mem_append.mp mem with mem | mem
        · exact apart entry mem
        · exact (complete total done).2 entry mem
      · intro stopped
        obtain ⟨entry, mem, both⟩ := failed stopped
        rw [entries_cons]
        exact ⟨entry, List.mem_append_right _ mem, both⟩

/-- Zapping a subtree does to the map what it should, and keeps the watch descriptors distinct. -/
theorem zapSubtree_zapped {cache : Cache} (distinct : (table cache).Distinct)
    (rmWatch : Int → Bool) (pathname : List UInt8) :
    (table (zapSubtree rmWatch pathname cache).2).Distinct ∧
      Zapped rmWatch pathname (watched cache) (watched (zapSubtree rmWatch pathname cache).2)
        (zapSubtree rmWatch pathname cache).1 := by
  -- The slots removed are those of the entries that have gone, and the others hold what they held.
  obtain ⟨gone, removed, zapped, complete, failed⟩ := zapSubtree_entries rmWatch pathname cache
  have distinct_ := distinct.of_removed removed
  refine ⟨distinct_, ⟨gone.map Prod.fst, ?_, fun wd => ?_, ?_, ?_⟩, ?_, ?_⟩
  -- No watch is removed twice, since no two slots held the same one.
  · have all := (removed.map Prod.fst).nodup_iff.mp distinct
    rw [List.map_append] at all
    exact (List.nodup_append.mp all).1
  -- Every other watch is shown as before.
  · rw [watched, SlotTable.lookup_of_removed distinct removed]
    congr
  -- What was removed was in the cache, with a path below the given one.
  · intro wd mem
    obtain ⟨⟨_, path⟩, there, rfl⟩ := List.mem_map.mp mem
    refine ⟨(zapped _ there).1, path, (SlotTable.lookup_eq_some_iff distinct).mpr ?_,
      (zapped _ there).2⟩
    exact removed.mem_iff.mpr (List.mem_append_left _ there)
  -- The count of a complete pass is the number of removed watches.
  · intro total done
    rw [List.length_map]
    exact (complete total done).1
  -- After a complete pass nothing below the path is left.
  · intro total done wd path cached
    exact (complete total done).2 _ ((SlotTable.lookup_eq_some_iff distinct_).mp cached)
  -- A pass that stopped did so at a watch that could not be removed.
  · intro stopped
    obtain ⟨⟨wd, path⟩, mem, below, refused⟩ := failed stopped
    exact ⟨wd, path, (SlotTable.lookup_eq_some_iff distinct_).mpr mem, below, refused⟩

/-- Marking the slot of a watch descriptor as unused deletes the watch descriptor. -/
theorem markCacheSlotEmpty_watched {cache : Cache} (distinct : (table cache).Distinct) {wd : Watch}
    {index : Nat} (found : findWatch cache wd.val = some index) :
    (table (markCacheSlotEmpty cache index)).Distinct ∧
      watched (markCacheSlotEmpty cache index) = Function.update (watched cache) wd none := by
  obtain ⟨slot, _, _, held⟩ := table_of_findWatch found
  -- Clearing a slot of the cache is clearing its entry in the table.
  have cleared : table (markCacheSlotEmpty cache index) = (table cache).set index none := by
    rw [table, markCacheSlotEmpty, List.map_set, entry_empty]
    rfl
  have removed : (table cache).entries.Perm
      ([(wd, slot.path)] ++ (table (markCacheSlotEmpty cache index)).entries) := by
    rw [cleared]
    exact SlotTable.entries_clear held
  -- The watch was in no other slot, so it is gone from the map.
  refine ⟨distinct.of_removed removed, ?_⟩
  rw [watched, cleared]
  exact SlotTable.lookup_clear distinct held

/-- Every operation keeps the watch descriptors distinct. -/
theorem apply_distinct {cache next : Cache} (distinct : (table cache).Distinct) {op : CacheOp}
    (ran : op.apply cache = .ok next) : (table next).Distinct := by
  -- One case for each operation, by what that operation does to the map.
  cases op with
  | traverseTree visit => exact (traverseTree_watched distinct ran).1
  | rewriteCachedPaths oldPathPrefix oldName newPathPrefix newName =>
    cases ran
    rw [table_rewriteCachedPaths]
    exact distinct.map _
  | zapSubtree rmWatch pathname => cases ran; exact (zapSubtree_zapped distinct rmWatch pathname).1
  | markCacheSlotEmpty wd =>
    cases ran
    split
    · rename_i index found
      exact (markCacheSlotEmpty_watched distinct found).1
    · exact distinct
  | reinitialize visits => exact (watchSubtree_watched distinct_nil ran).1

/-- Every sequence of operations keeps the watch descriptors distinct. -/
theorem applyAll_distinct {ops : List CacheOp} {cache next : Cache}
    (distinct : (table cache).Distinct) (ran : applyAll cache ops = .ok next) :
    (table next).Distinct := by
  -- By induction on the operations, from the cache that each one leaves.
  induction ops generalizing cache with
  | nil => cases ran; exact distinct
  | cons op ops ih =>
    rw [applyAll, List.foldlM_cons] at ran
    cases first : op.apply cache with
    | error exit => rw [first] at ran; cases ran
    | ok middle =>
      rw [first] at ran
      exact ih (apply_distinct distinct first) ran

/-- What is true of the cache at all times. -/
structure CacheCorrect (cache : Cache) : Prop where
  /-- No two slots that hold an item have the same watch descriptor. -/
  distinct : ∀ (first second : Nat) (one two : Slot),
    cache[first]? = some one → cache[second]? = some two →
    0 ≤ one.wd → one.wd = two.wd → first = second
  /-- The map is what the slots hold that are in use. -/
  contents : ∀ wd path, watched cache wd = some path ↔
    ∃ slot ∈ cache, slot.wd = wd.val ∧ slot.path = path
  /-- The map is finite. -/
  finite : {wd | watched cache wd ≠ none}.Finite
  /-- Looking for a watch descriptor is looking it up in the map. -/
  find : ∀ wd : Watch,
    watched cache wd = (findWatch cache wd.val).bind fun index => cache[index]?.map Slot.path
  /-- Adding an item neither overwrites nor drops a slot that holds one. -/
  keeps : ∀ visit next, traverseTree cache visit = .ok next →
    ∀ (index : Nat) (slot : Slot),
      cache[index]? = some slot → 0 ≤ slot.wd → next[index]? = some slot
  /-- A visit inserts a watch descriptor that is absent. -/
  insert : ∀ visit next, traverseTree cache visit = .ok next →
    watched next = WatchMap.visit (watched cache) visit
  /-- A rename rewrites the pathnames. -/
  rewrite : ∀ oldPathPrefix oldName newPathPrefix newName wd,
    watched (rewriteCachedPaths cache oldPathPrefix oldName newPathPrefix newName) wd =
      (watched cache wd).map (renamed oldPathPrefix oldName newPathPrefix newName)
  /-- Zapping a subtree deletes watch descriptors. -/
  zap : ∀ rmWatch pathname, Zapped rmWatch pathname (watched cache)
    (watched (zapSubtree rmWatch pathname cache).2) (zapSubtree rmWatch pathname cache).1
  /-- Marking the slot of a watch descriptor as unused deletes the watch descriptor. -/
  delete : ∀ (wd : Watch) index, findWatch cache wd.val = some index →
    watched (markCacheSlotEmpty cache index) =
      Function.update (watched cache) wd none
  /-- A rebuilt cache is the map that its visits build. -/
  rebuild : ∀ visits next, reinitialize visits = .ok next →
    watched next = visits.foldl WatchMap.visit fun _ => none

/-- Whatever the program does with its cache, the cache behaves as a finite map. -/
theorem cache_correct (ops : List CacheOp) (cache : Cache) (ran : applyAll [] ops = .ok cache) :
    CacheCorrect cache := by
  -- All parts rest on this invariant: no two slots hold the same watch.
  have distinct : (table cache).Distinct := applyAll_distinct distinct_nil ran
  constructor
  case distinct => exact fun _ _ _ _ left right => slot_unique distinct left right
  case contents => exact fun _ _ => watched_eq_some_iff distinct
  -- The map has no more watches than the cache has slots in use.
  case finite =>
    refine Set.Finite.subset (List.finite_toSet ((table cache).entries.map Prod.fst)) ?_
    intro wd cached
    obtain ⟨path, known⟩ := Option.ne_none_iff_exists'.mp cached
    exact List.mem_map.mpr ⟨_, (SlotTable.lookup_eq_some_iff distinct).mp known, rfl⟩
  case find => exact watched_eq_findWatch distinct
  case keeps => exact fun _ _ added _ _ there live => traverseTree_keeps added there live
  case insert => exact fun _ _ added => (traverseTree_watched distinct added).2
  case rewrite =>
    intro oldPathPrefix oldName newPathPrefix newName wd
    rw [watched, table_rewriteCachedPaths]
    exact SlotTable.lookup_map _ wd
  case zap => exact fun rmWatch pathname => (zapSubtree_zapped distinct rmWatch pathname).2
  case delete => exact fun _ _ found => (markCacheSlotEmpty_watched distinct found).2
  case rebuild =>
    intro visits next built
    rw [(watchSubtree_watched distinct_nil built).2]
    congr 1

/-- A visit of the file with this pathname, for which a watch is answered. -/
def visitOf (path : List UInt8) (isDir : Bool) (wd : Watch) : Visit :=
  ⟨snprintf path, isDir, .watching wd⟩

/--
The tree of `/a` is watched, in which `/a/b` is renamed to `/a/d`, `/a/bb` is moved out, `/a/d/e` is
made and `/a/d/c` is removed.
-/
def nestedTreeOps : List CacheOp :=
  [ CacheOp.reinitialize [visitOf [47, 97] true (watchOf 1),
      visitOf [47, 97, 47, 98] true (watchOf 2),
      visitOf [47, 97, 47, 98, 47, 99] true (watchOf 3),
      visitOf [47, 97, 47, 102] false (watchOf 7),
      visitOf [47, 97, 47, 98, 98] true (watchOf 4)],
    .rewriteCachedPaths [47, 97] [98] [47, 97] [100],
    .zapSubtree (fun _ => true) [47, 97, 47, 98, 98],
    .traverseTree (visitOf [47, 97, 47, 100, 47, 101] true (watchOf 5)),
    .markCacheSlotEmpty (watchOf 3)]

/-- The cache knows the directories that are left, under their new pathnames. -/
theorem cache_correct_nestedTree : ∃ cache, applyAll [] nestedTreeOps = .ok cache ∧
    (watched cache (watchOf 2) = some (snprintf [47, 97, 47, 100]) ∧
      watched cache (watchOf 3) = none ∧ watched cache (watchOf 4) = none ∧
      watched cache (watchOf 5) = some (snprintf [47, 97, 47, 100, 47, 101])) ∧
    CacheCorrect cache := by
  -- The run is evaluated, with the contents of its last cache.
  have ends : (applyAll [] nestedTreeOps).toOption.any (fun cache => decide
      (watched cache (watchOf 2) = some (snprintf [47, 97, 47, 100]) ∧
        watched cache (watchOf 3) = none ∧ watched cache (watchOf 4) = none ∧
        watched cache (watchOf 5) = some (snprintf [47, 97, 47, 100, 47, 101]))) = true := by
    decide +kernel
  cases ran : applyAll [] nestedTreeOps with
  | error exit =>
    rw [ran] at ends
    cases ends
  | ok cache =>
    rw [ran] at ends
    exact ⟨cache, rfl, of_decide_eq_true ends, cache_correct nestedTreeOps cache ran⟩

end SysProg.Inotify
