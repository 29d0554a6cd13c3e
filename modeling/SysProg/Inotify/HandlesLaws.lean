import SysProg.Inotify.EventsLaws

/-! What is done about each kind of event, as far as the cache and the root directories go. -/

namespace SysProg.Inotify

/-- What has happened, by the first of the flags that are looked at. -/
inductive Kind where
  /-- A directory was created, or moved into a watched directory. -/
  | created
  | deletedSelf
  /-- A directory was moved away from a watched directory. -/
  | movedFrom
  | overflow
  | unmounted
  | movedSelf
  | other
  deriving DecidableEq

/-- What the flags of an event say. -/
def InotifyEvent.kind (ev : InotifyEvent) : Kind :=
  if ev.has inIsdir && ev.has (inCreate ||| inMovedTo) then .created
  else if ev.has inDeleteSelf then .deletedSelf
  else if ev.isMovedFromDir then .movedFrom
  else if ev.has inQOverflow then .overflow
  else if ev.has inUnmount then .unmounted
  else if ev.has inMoveSelf then .movedSelf
  else .other

/-- Only an event that carries the flags of a directory moved away is of that kind. -/
theorem InotifyEvent.isMovedFromDir_of_kind {ev : InotifyEvent} (kind : ev.kind = .movedFrom) :
    ev.isMovedFromDir = true := by
  unfold InotifyEvent.kind at kind
  split_ifs at kind
  assumption

/-- A watch descriptor is in the cache, in this slot and with this pathname. -/
def Cached (cache : Cache) (wd : Int) (slot : Nat) (path : List UInt8) : Prop :=
  findWatch cache wd = some slot ∧ (cache[slot]?.map fun item => item.path.val) = some path

/-- One more event has been handled. -/
def Program.counted (program : Program) : Program :=
  { program with eventCnt := program.eventCnt + 1 }

/-- What is done about an event, where this one is the next, if there is a next one. -/
inductive Handles (world : World) (program : Program) (ev : InotifyEvent)
    (nextEv : Option InotifyEvent) : Handling → Program → Prop
  /-- The cache does not know the directory, so it is built anew. -/
  | unknownWatch {after : Program} (unknown : findWatch program.cache ev.wd.toInt = none)
      (rebuilt : program.reinitialize world = .ok after) :
    Handles world program ev nextEv ⟨ev, none, .unknownWatch, true⟩ after.counted
  /-- The directories of the new subtree are watched, unless it is in the cache already. -/
  | created {slot : Nat} {path : List UInt8} {cache : Cache} (kind : ev.kind = .created)
      (cached : Cached program.cache ev.wd.toInt slot path)
      (watches : (if pathnameInCache program.cache (fullPathOf path ev.nameString) then
          .ok program.cache
        else watchSubtree program.cache
          (world.visits program.eventCnt (fullPathOf path ev.nameString))) = .ok cache) :
    Handles world program ev nextEv ⟨ev, none, .created, false⟩
      { program with cache := cache }.counted
  /-- The slot of the directory is freed, and a root directory is not monitored any more. -/
  | deleted {slot : Nat} {path : List UInt8} {after : Program} (kind : ev.kind = .deletedSelf)
      (cached : Cached program.cache ev.wd.toInt slot path)
      (root : (if program.isRootDirPath path then program.zapRootDirPath path else .ok program) =
        .ok after) :
    Handles world program ev nextEv ⟨ev, none, .deleted, false⟩
      { after with cache := markCacheSlotEmpty program.cache slot }.counted
  /-- The next event says where the directory is now, and the cached pathnames follow. -/
  | renamed {partner : InotifyEvent} {slot other : Nat} {oldPath newPath : List UInt8}
      (kind : ev.kind = .movedFrom) (next : nextEv = some partner) (partners : Matches ev partner)
      (cached : Cached program.cache ev.wd.toInt slot oldPath)
      (cached_ : Cached program.cache partner.wd.toInt other newPath) :
    Handles world program ev nextEv ⟨ev, some partner, .renamed, false⟩
      { program with
        cache := rewriteCachedPaths program.cache oldPath ev.nameString newPath
          partner.nameString }.counted
  /-- The next event says where the directory is now, which the cache does not know. -/
  | unknownPartner {partner : InotifyEvent} {after : Program} (kind : ev.kind = .movedFrom)
      (next : nextEv = some partner) (partners : Matches ev partner)
      (unknown : findWatch program.cache partner.wd.toInt = none)
      (rebuilt : program.reinitialize world = .ok after) :
    Handles world program ev nextEv ⟨ev, none, .unknownWatch, true⟩ after.counted
  /-- The next event is another one, and the subtree is removed from the cache. -/
  | movedOut {slot count : Nat} {path : List UInt8} {cache : Cache} (kind : ev.kind = .movedFrom)
      (alone : ∀ partner, nextEv = some partner → ¬ Matches ev partner)
      (cached : Cached program.cache ev.wd.toInt slot path)
      (zapped : zapSubtree (world.rmWatch program.eventCnt) (fullPathOf path ev.nameString)
        program.cache = (some count, cache)) :
    Handles world program ev nextEv ⟨ev, none, .movedOut, false⟩
      { program with cache := cache }.counted
  /-- The next event is another one, and a watch of the subtree cannot be removed. -/
  | movedOutFails {slot : Nat} {path : List UInt8} {cache : Cache} {after : Program}
      (kind : ev.kind = .movedFrom)
      (alone : ∀ partner, nextEv = some partner → ¬ Matches ev partner)
      (cached : Cached program.cache ev.wd.toInt slot path)
      (zapped : zapSubtree (world.rmWatch program.eventCnt) (fullPathOf path ev.nameString)
        program.cache = (none, cache))
      (rebuilt : Program.reinitialize { program with cache := cache } world = .ok after) :
    Handles world program ev nextEv ⟨ev, none, .movedOut, true⟩ after.counted
  /-- Events have been lost, so the cache is built anew. -/
  | overflow {after : Program} (kind : ev.kind = .overflow)
      (rebuilt : program.reinitialize world = .ok after) :
    Handles world program ev nextEv ⟨ev, none, .overflow, true⟩ after.counted
  /-- The slot of the directory is freed. -/
  | unmounted {slot : Nat} {path : List UInt8} (kind : ev.kind = .unmounted)
      (cached : Cached program.cache ev.wd.toInt slot path) :
    Handles world program ev nextEv ⟨ev, none, .unmounted, false⟩
      { program with cache := markCacheSlotEmpty program.cache slot }.counted
  /-- A root directory is not monitored any more, and its tree is removed from the cache. -/
  | rootMoved {slot count : Nat} {path : List UInt8} {cache : Cache} {after : Program}
      (kind : ev.kind = .movedSelf) (cached : Cached program.cache ev.wd.toInt slot path)
      (root : program.isRootDirPath path = true) (zapped : program.zapRootDirPath path = .ok after)
      (removed : zapSubtree (world.rmWatch after.eventCnt) path after.cache =
        (some count, cache)) :
    Handles world program ev nextEv ⟨ev, none, .rootMoved, false⟩
      { after with cache := cache }.counted
  /-- A root directory is not monitored any more, and a watch of its tree cannot be removed. -/
  | rootMovedFails {slot : Nat} {path : List UInt8} {cache : Cache} {middle after : Program}
      (kind : ev.kind = .movedSelf) (cached : Cached program.cache ev.wd.toInt slot path)
      (root : program.isRootDirPath path = true) (zapped : program.zapRootDirPath path = .ok middle)
      (removed : zapSubtree (world.rmWatch middle.eventCnt) path middle.cache = (none, cache))
      (rebuilt : Program.reinitialize { middle with cache := cache } world = .ok after) :
    Handles world program ev nextEv ⟨ev, none, .rootMoved, true⟩ after.counted
  /-- A directory that is no root was moved, which the events of its parents tell, too. -/
  | innerMoved {slot : Nat} {path : List UInt8} (kind : ev.kind = .movedSelf)
      (cached : Cached program.cache ev.wd.toInt slot path)
      (inner : program.isRootDirPath path = false) :
    Handles world program ev nextEv ⟨ev, none, .ignored, false⟩ program.counted
  | ignored (kind : ev.kind = .other) :
    Handles world program ev nextEv ⟨ev, none, .ignored, false⟩ program.counted

/-- For what the cache is built anew, where this event is the next, if there is a next one. -/
inductive Rebuilds (world : World) (program : Program) (ev : InotifyEvent)
    (nextEv : Option InotifyEvent) : Program → Prop
  | unknownWatch (unknown : findWatch program.cache ev.wd.toInt = none) :
    Rebuilds world program ev nextEv program
  | unknownPartner {partner : InotifyEvent} (kind : ev.kind = .movedFrom)
      (next : nextEv = some partner) (partners : Matches ev partner)
      (unknown : findWatch program.cache partner.wd.toInt = none) :
    Rebuilds world program ev nextEv program
  /-- A watch of a subtree that was moved out cannot be removed. -/
  | movedOut {slot : Nat} {path : List UInt8} {cache : Cache} (kind : ev.kind = .movedFrom)
      (alone : ∀ partner, nextEv = some partner → ¬ Matches ev partner)
      (cached : Cached program.cache ev.wd.toInt slot path)
      (zapped : zapSubtree (world.rmWatch program.eventCnt) (fullPathOf path ev.nameString)
        program.cache = (none, cache)) :
    Rebuilds world program ev nextEv { program with cache := cache }
  | overflow (kind : ev.kind = .overflow) : Rebuilds world program ev nextEv program
  /-- A watch of the tree of a root directory that was moved cannot be removed. -/
  | rootMoved {slot : Nat} {path : List UInt8} {cache : Cache} {middle : Program}
      (kind : ev.kind = .movedSelf) (cached : Cached program.cache ev.wd.toInt slot path)
      (root : program.isRootDirPath path = true) (zapped : program.zapRootDirPath path = .ok middle)
      (removed : zapSubtree (world.rmWatch middle.eventCnt) path middle.cache = (none, cache)) :
    Rebuilds world program ev nextEv { middle with cache := cache }

/-- Why the program exits when it handles an event. -/
inductive Exits (opts : Options) (world : World) (program : Program) (ev : InotifyEvent)
    (nextEv : Option InotifyEvent) : Exit → Prop
  /-- The cache does not know the directory, and the option asks for the end. -/
  | aborted (asked : opts.abortOnCacheProblem = true)
      (unknown : findWatch program.cache ev.wd.toInt = none) :
    Exits opts world program ev nextEv .aborted
  | abortedPartner {partner : InotifyEvent} (asked : opts.abortOnCacheProblem = true)
      (kind : ev.kind = .movedFrom) (next : nextEv = some partner) (partners : Matches ev partner)
      (unknown : findWatch program.cache partner.wd.toInt = none) :
    Exits opts world program ev nextEv .aborted
  /-- The directories of the roots cannot be watched when the cache is built anew. -/
  | rebuildFails {cause : Program} {exit : Exit} (rebuilds : Rebuilds world program ev nextEv cause)
      (failed : cause.reinitialize world = .error exit) :
    Exits opts world program ev nextEv exit
  /-- The directories of a new subtree cannot be watched. -/
  | watchFails {slot : Nat} {path : List UInt8} {exit : Exit} (kind : ev.kind = .created)
      (cached : Cached program.cache ev.wd.toInt slot path)
      (new : pathnameInCache program.cache (fullPathOf path ev.nameString) = false)
      (failed : watchSubtree program.cache
        (world.visits program.eventCnt (fullPathOf path ev.nameString)) = .error exit) :
    Exits opts world program ev nextEv exit
  /-- The last root directory was deleted or moved. -/
  | lastRoot {slot : Nat} {path : List UInt8} (kind : ev.kind = .deletedSelf ∨ ev.kind = .movedSelf)
      (cached : Cached program.cache ev.wd.toInt slot path)
      (root : program.isRootDirPath path = true)
      (last : program.ignoreRootDirs + 1 = program.rootDirPaths.length) :
    Exits opts world program ev nextEv .success
  /-- The event has been handled, and the check of the cache that the option asks for fails. -/
  | checkFails {handling : Handling} {next : Program}
      (handles : Handles world program ev nextEv handling next.counted)
      (asked : opts.checkCache = true) (found : world.checkExits next.eventCnt = true) :
    Exits opts world program ev nextEv .failure

/-- Only the other event of a rename is handled along with an event. -/
theorem Handles.pairs {world : World} {program after : Program} {ev partner : InotifyEvent}
    {nextEv : Option InotifyEvent} {handling : Handling}
    (handles : Handles world program ev nextEv handling after)
    (found : handling.partner = some partner) : nextEv = some partner ∧ Matches ev partner := by
  -- Only a rename is handled with a partner.
  cases handles
  case renamed other _ _ _ _ _ next partners _ _ =>
    obtain rfl := Option.some.inj found
    exact ⟨next, partners⟩
  all_goals cases found

/-- The two events of a rename are handled together, unless a watch descriptor is unknown. -/
theorem Handles.together {world : World} {program after : Program} {ev next : InotifyEvent}
    {handling : Handling} (handles : Handles world program ev (some next) handling after)
    (kind : ev.kind = .movedFrom) (partners : Matches ev next) :
    handling.partner = some next ∨ handling.action = .unknownWatch := by
  -- With a partner at hand, a move is not handled as one out of the trees.
  cases handles
  case renamed partner _ _ _ _ _ same _ _ _ => exact .inl same.symm
  case unknownWatch | unknownPartner => exact .inr rfl
  case movedOut alone _ _ | movedOutFails alone _ _ _ => exact absurd partners (alone next rfl)
  all_goals simp_all

/-- With an unknown watch descriptor, a directory moved away has the cache built anew. -/
theorem Handles.unknown {world : World} {program after : Program} {ev : InotifyEvent}
    {handling : Handling} (handles : Handles world program ev none handling after)
    (unknown : findWatch program.cache ev.wd.toInt = none) (kind : ev.kind = .movedFrom) :
    handling.action = .unknownWatch := by
  cases handles
  case unknownWatch | unknownPartner => rfl
  -- The others look into the cache, or are about other kinds of events.
  all_goals simp_all [Cached]

section Handlers

variable {opts : Options} {world : World} {program : Program} {ev : InotifyEvent}
  {nextEv : Option InotifyEvent} {firstTry : Bool} {outcome : Outcome}

/-- What two computations in a row return, the second one returns for what the first one does. -/
theorem bind_eq_ok {α β : Type} {computation : Except Exit α} {next : α → Except Exit β}
    {result : β} :
    computation >>= next = .ok result ↔
      ∃ middle, computation = .ok middle ∧ next middle = .ok result := by
  cases computation with
  | ok middle => exact ⟨fun done => ⟨middle, rfl, done⟩, fun ⟨_, rfl, done⟩ => done⟩
  | error exit => exact ⟨nofun, nofun⟩

/-- The event has been handled, and the program goes on behind it. -/
def Completes (world : World) (program : Program) (ev : InotifyEvent)
    (nextEv : Option InotifyEvent) (outcome : Outcome) : Prop :=
  0 < outcome.evLen ∧ Handles world program ev nextEv outcome.handling outcome.program

/-- The event hangs, and nothing has been done about it. -/
structure Outcome.Hangs (outcome : Outcome) (program : Program) (ev : InotifyEvent)
    (nextEv : Option InotifyEvent) (firstTry : Bool) : Prop where
  evLen : outcome.evLen = -1
  kind : ev.kind = .movedFrom
  last : nextEv = none
  first : firstTry = true
  looked : outcome.program = program.counted

/-- What is done about an event: it hangs, it is handled, or there is a reason to exit. -/
def Does (opts : Options) (world : World) (program : Program) (ev : InotifyEvent)
    (nextEv : Option InotifyEvent) (firstTry : Bool) (computation : Except Exit Outcome) : Prop :=
  match computation with
  | .ok outcome =>
    outcome.Hangs program ev nextEv firstTry ∨ Completes world program ev nextEv outcome
  | .error exit => Exits opts world program ev nextEv exit

/-- The first of two computations has a reason where it exits, and the second one does the rest. -/
theorem Does.bind {α : Type} {computation : Except Exit α} {next : α → Except Exit Outcome}
    (fails : ∀ exit, computation = .error exit → Exits opts world program ev nextEv exit)
    (goesOn : ∀ result, computation = .ok result →
      Does opts world program ev nextEv firstTry (next result)) :
    Does opts world program ev nextEv firstTry (computation >>= next) := by
  -- By cases on what the first computation has led to.
  cases computation with
  | ok result => exact goesOn result rfl
  | error exit => exact fails exit rfl

/-- The handling of an event ends with the check of the cache, which changes nothing. -/
theorem finish_does {next : Program} {handling : Handling} {evLen : Int} (positive : 0 < evLen)
    (handles : Handles world program ev nextEv handling next.counted) :
    Does opts world program ev nextEv firstTry (finish opts world next handling evLen) := by
  rw [finish]
  -- The check exits, or the event has been handled.
  split
  next fails =>
    obtain ⟨asked, found⟩ := Bool.and_eq_true_iff.mp fails
    exact .checkFails handles asked found
  next => exact .inr ⟨positive, handles⟩

/-- The handling of a single event. -/
theorem finish_does_size {next : Program} {handling : Handling}
    (handles : Handles world program ev nextEv handling next.counted) :
    Does opts world program ev nextEv firstTry (finish opts world next handling ev.size) := by
  have large := size_pos ev
  exact finish_does (by omega) handles

/-- Building the cache anew leaves nothing of the buffer. -/
theorem rebuild_does {next : Program} {action : Action}
    (rebuilds : Rebuilds world program ev nextEv next)
    (handles : ∀ after, next.reinitialize world = .ok after →
      Handles world program ev nextEv ⟨ev, none, action, true⟩ after.counted) :
    Does opts world program ev nextEv firstTry (rebuild world next ev action) := by
  -- If the directories of the roots cannot be watched, that is the reason to exit.
  refine Does.bind (fun exit failed => .rebuildFails rebuilds failed) fun after rebuilt => .inr ?_
  -- The length of the whole buffer is returned, which ends the loop over it.
  have positive : (0 : Int) < inotifyReadBufLen := by decide
  exact ⟨positive, handles after rebuilt⟩

/-- An expected watch descriptor is found, or the program goes on without it. -/
theorem findWatchChecked_eq_ok {cache : Cache} {wd : Int} {found : Option Nat}
    (done : findWatchChecked opts cache wd = .ok found) : findWatch cache wd = found := by
  rw [findWatchChecked] at done
  -- A watch that was not found is the end of the program, if the option asks for it.
  split at done
  next slot here => exact here.trans (Except.ok.inj done)
  next here =>
    split at done
    · cases done
    · exact here.trans (Except.ok.inj done)

/-- An expected watch descriptor is unknown, and the option asks for the end. -/
theorem findWatchChecked_eq_error {cache : Cache} {wd : Int} {exit : Exit}
    (failed : findWatchChecked opts cache wd = .error exit) :
    exit = .aborted ∧ opts.abortOnCacheProblem = true ∧ findWatch cache wd = none := by
  rw [findWatchChecked] at failed
  -- What was found is no error, and without the option the caller goes on.
  split at failed
  · cases failed
  next unknown =>
    split at failed
    next asked => exact ⟨(Except.error.inj failed).symm, asked, unknown⟩
    next => cases failed

/-- The pathname in the slot that was looked up is the one that is cached. -/
theorem cachedPath_eq_ok {cache : Cache} {wd : Int} {slot : Nat} {path : List UInt8}
    (found : findWatch cache wd = some slot) (done : cachedPath cache (some slot) = .ok path) :
    Cached cache wd slot path := by
  refine ⟨found, ?_⟩
  rw [cachedPath, Option.bind_some] at done
  -- The path is that of the slot that was found.
  cases here : cache[slot]? with
  | none =>
    rw [here] at done
    cases done
  | some item =>
    rw [here] at done
    exact congrArg some (Except.ok.inj done)

/-- The slot that was looked up is there. -/
theorem cachedPath_does {cache : Cache} {wd : Int} {slot : Nat}
    {next : List UInt8 → Except Exit Outcome} (found : findWatch cache wd = some slot)
    (goesOn : ∀ path, Cached cache wd slot path →
      Does opts world program ev nextEv firstTry (next path)) :
    Does opts world program ev nextEv firstTry (cachedPath cache (some slot) >>= next) := by
  refine Does.bind (fun exit failed => ?_) fun path here =>
    goesOn path (cachedPath_eq_ok found here)
  -- A slot that was found is within the cache.
  have there := (List.findIdx?_eq_some_iff_getElem.mp found).1
  rw [cachedPath, Option.bind_some, List.getElem?_eq_getElem there] at failed
  cases failed

/-- What is safe satisfies its postcondition where it returns. -/
theorem Safe.of_ok {α : Type} {computation : Except Exit α} {post : α → Prop} {result : α}
    (safe : Safe computation post) (done : computation = .ok result) : post result := by
  rw [done] at safe
  exact safe

section Slots

variable {slot : Nat}

/-- A new subtree is watched. -/
theorem handleCreate_does (kind : ev.kind = .created)
    (found : findWatch program.cache ev.wd.toInt = some slot) :
    Does opts world program ev nextEv firstTry
      (handleCreate opts world program ev (some slot)) := by
  refine cachedPath_does found fun path cached => ?_
  refine Does.bind (fun exit failed => ?_) fun cache watches =>
    finish_does_size (.created kind cached watches)
  -- Only a subtree that is not in the cache is visited.
  split at failed
  · cases failed
  next new => exact .watchFails kind cached (by simpa using new) failed

/-- The last root directory that is monitored is the end of the program. -/
theorem zapRootDirPath_exits {path : List UInt8} {exit : Exit}
    (kind : ev.kind = .deletedSelf ∨ ev.kind = .movedSelf)
    (cached : Cached program.cache ev.wd.toInt slot path)
    (root : program.isRootDirPath path = true)
    (failed : program.zapRootDirPath path = .error exit) :
    Exits opts world program ev nextEv exit := by
  rw [Program.zapRootDirPath] at failed
  split at failed
  next missing =>
    -- What is a root directory is found in the array.
    have there : some path ∈ program.rootDirPaths := of_decide_eq_true root
    have other := List.findIdx?_eq_none_iff.mp missing (some path) there
    simp at other
  next =>
    split at failed
    next last =>
      obtain rfl := Except.error.inj failed
      exact .lastRoot kind cached root last
    next => cases failed

/-- A directory that was deleted leaves the cache. -/
theorem handleDeleteSelf_does (kind : ev.kind = .deletedSelf)
    (found : findWatch program.cache ev.wd.toInt = some slot) :
    Does opts world program ev nextEv firstTry
      (handleDeleteSelf opts world program ev (some slot)) := by
  refine cachedPath_does found fun path cached => ?_
  refine Does.bind (fun exit failed => ?_) fun after root => ?_
  -- Only the last root directory is a reason to exit.
  · split at failed
    next isRoot => exact zapRootDirPath_exits (.inl kind) cached isRoot failed
    next => cases failed
  -- Whether it is a root directory or not, the cache is the one before.
  have same : after.cache = program.cache := by
    split at root
    · exact ((zapRootDirPath_safe program path).of_ok root).2
    · rw [Except.ok.inj root]
  dsimp only
  rw [Option.elim_some, same]
  exact finish_does_size (.deleted kind cached root)

/-- A rename inside the trees is followed by the cached pathnames. -/
theorem handleRename_does {partner : InotifyEvent} (kind : ev.kind = .movedFrom)
    (next : nextEv = some partner) (partners : Matches ev partner)
    (found : findWatch program.cache ev.wd.toInt = some slot) :
    Does opts world program ev nextEv firstTry
      (handleRename opts world program ev (some slot) partner) := by
  refine Does.bind (fun exit failed => ?_) fun other there => ?_
  -- The partner's directory has to be in the cache if the option to abort is set.
  · obtain ⟨rfl, asked, unknown⟩ := findWatchChecked_eq_error failed
    exact .abortedPartner asked kind next partners unknown
  have looked := findWatchChecked_eq_ok there
  -- The directory that the partner names may be unknown, and then the cache is rebuilt.
  cases other with
  | none =>
    exact rebuild_does (.unknownPartner kind next partners looked) fun after rebuilt =>
      .unknownPartner kind next partners looked rebuilt
  | some other =>
    -- Otherwise both paths are read and the cache is rewritten.
    refine cachedPath_does found fun oldPath cached => ?_
    refine cachedPath_does looked fun newPath cached_ => ?_
    have large := size_pos ev
    exact finish_does (by omega) (.renamed kind next partners cached cached_)

/-- A directory that was moved out of the trees leaves the cache with all below it. -/
theorem handleMovedOut_does (kind : ev.kind = .movedFrom)
    (alone : ∀ partner, nextEv = some partner → ¬ Matches ev partner)
    (found : findWatch program.cache ev.wd.toInt = some slot) :
    Does opts world program ev nextEv firstTry
      (handleMovedOut opts world program ev (some slot)) := by
  refine cachedPath_does found fun path cached => ?_
  dsimp only
  -- zapSubtree() fails, and the cache is rebuilt, or it removes what lies below.
  split
  next cache zapped =>
    exact rebuild_does (.movedOut kind alone cached zapped) fun after rebuilt =>
      .movedOutFails kind alone cached zapped rebuilt
  next count cache zapped => exact finish_does_size (.movedOut kind alone cached zapped)

/-- A directory that was unmounted leaves the cache. -/
theorem handleUnmount_does (kind : ev.kind = .unmounted)
    (found : findWatch program.cache ev.wd.toInt = some slot) :
    Does opts world program ev nextEv firstTry
      (handleUnmount opts world program ev (some slot)) :=
  cachedPath_does found fun _ cached => finish_does_size (.unmounted kind cached)

/-- A root directory that was moved leaves the cache with all below it. -/
theorem handleMoveSelf_does {path : List UInt8} (kind : ev.kind = .movedSelf)
    (cached : Cached program.cache ev.wd.toInt slot path)
    (root : program.isRootDirPath path = true) :
    Does opts world program ev nextEv firstTry (handleMoveSelf opts world program ev path) := by
  refine Does.bind (fun exit failed => zapRootDirPath_exits (.inr kind) cached root failed)
    fun middle zapped => ?_
  -- zapSubtree() fails, and the cache is rebuilt, or it removes the root's tree.
  split
  next cache removed =>
    exact rebuild_does (.rootMoved kind cached root zapped removed) fun after rebuilt =>
      .rootMovedFails kind cached root zapped removed rebuilt
  next count cache removed => exact finish_does_size (.rootMoved kind cached root zapped removed)

/-- The second event of a rename is looked for where a directory was moved away. -/
theorem handleMovedFrom_does (kind : ev.kind = .movedFrom)
    (found : findWatch program.cache ev.wd.toInt = some slot) :
    Does opts world program ev nextEv firstTry
      (handleMovedFrom opts world program ev (some slot) nextEv firstTry) := by
  have moved := InotifyEvent.isMovedFromDir_of_kind kind
  rw [handleMovedFrom.eq_def]
  -- With a second event at hand it is compared; without one the first try asks for it.
  cases nextEv with
  | some partner =>
    dsimp only
    split
    next both =>
      obtain ⟨arrives, same⟩ := Bool.and_eq_true_iff.mp both
      exact handleRename_does kind rfl ⟨moved, arrives, of_decide_eq_true same⟩ found
    next apart =>
      refine handleMovedOut_does kind ?_ found
      -- What is not a partner by the conditions of the source is none by Matches.
      intro other same partners
      obtain rfl := Option.some.inj same
      exact apart (Bool.and_eq_true_iff.mpr ⟨partners.2.1, decide_eq_true partners.2.2⟩)
  | none =>
    dsimp only
    split
    next first => exact .inl ⟨rfl, kind, rfl, first, rfl⟩
    next second =>
      refine handleMovedOut_does kind ?_ found
      intro partner arrives
      cases arrives

end Slots

/-- An overflow of the queue makes the program begin anew. -/
theorem handleOverflow_does (kind : ev.kind = .overflow) :
    Does opts world program ev nextEv firstTry (handleOverflow opts world program ev) :=
  Does.bind (fun _ failed => .rebuildFails (.overflow kind) failed) fun _ rebuilt =>
    finish_does (by decide) (.overflow kind rebuilt)

/-- What is done about an event for which a slot has been found. -/
theorem handleEvent_does {slot : Nat} (found : findWatch program.cache ev.wd.toInt = some slot) :
    Does opts world program ev nextEv firstTry
      (handleEvent opts world program ev (some slot) nextEv firstTry) := by
  -- The flags are looked at in the order in which they make up the kind of the event.
  rw [handleEvent]
  split_ifs with created deleted moved overflow unmounted movedSelf
  · exact handleCreate_does (by simp [InotifyEvent.kind, created]) found
  · exact handleDeleteSelf_does (by simp [InotifyEvent.kind, created, deleted]) found
  · have kind : ev.kind = .movedFrom := by simp [InotifyEvent.kind, created, deleted, moved]
    exact handleMovedFrom_does kind found
  · have kind : ev.kind = .overflow := by
      simp [InotifyEvent.kind, created, deleted, moved, overflow]
    exact handleOverflow_does kind
  · have kind : ev.kind = .unmounted := by
      simp [InotifyEvent.kind, created, deleted, moved, overflow, unmounted]
    exact handleUnmount_does kind found
  · have kind : ev.kind = .movedSelf := by
      simp [InotifyEvent.kind, created, deleted, moved, overflow, unmounted, movedSelf]
    refine cachedPath_does found fun path cached => ?_
    split
    next root => exact handleMoveSelf_does kind cached root
    next inner => exact finish_does_size (.innerMoved kind cached (by simpa using inner))
  · have kind : ev.kind = .other := by
      simp [InotifyEvent.kind, created, deleted, moved, overflow, unmounted, movedSelf]
    exact finish_does_size (.ignored kind)

/-- An event without a slot is an overflow, or is left alone. -/
theorem handleEvent_does_none (mask : ev.mask = inQOverflow ∨ ev.mask = inIgnored) :
    Does opts world program ev nextEv firstTry
      (handleEvent opts world program ev none nextEv firstTry) := by
  rw [handleEvent]
  -- An overflow or IN_IGNORED: the chain of conditions is decided by the mask.
  rcases mask with mask | mask
  · have kind : ev.kind = .overflow := by
      simp only [InotifyEvent.kind, InotifyEvent.has, InotifyEvent.isMovedFromDir, mask]
      decide
    simp only [InotifyEvent.has, InotifyEvent.isMovedFromDir, mask]
    rw [if_neg (by decide), if_neg (by decide), if_neg (by decide), if_pos (by decide)]
    exact handleOverflow_does kind
  · have kind : ev.kind = .other := by
      simp only [InotifyEvent.kind, InotifyEvent.has, InotifyEvent.isMovedFromDir, mask]
      decide
    simp only [InotifyEvent.has, InotifyEvent.isMovedFromDir, mask]
    rw [if_neg (by decide), if_neg (by decide), if_neg (by decide), if_neg (by decide),
      if_neg (by decide), if_neg (by decide)]
    exact finish_does_size (.ignored kind)

/-- Every well-formed event is handled according to its kind, or hangs, or is the end. -/
theorem handleNextEvent_does (wellFormed : ev.WellFormed) :
    Does opts world program ev nextEv firstTry
      (handleNextEvent opts world program ev nextEv firstTry) := by
  rw [handleNextEvent]
  -- The watch of the event is looked up, unless it has none or is gone.
  split
  · refine Does.bind (fun exit failed => ?_) fun found looked => ?_
    · obtain ⟨rfl, asked, unknown⟩ := findWatchChecked_eq_error failed
      exact .aborted asked unknown
    have looked_ := findWatchChecked_eq_ok looked
    cases found with
    | none =>
      exact rebuild_does (.unknownWatch looked_) fun after rebuilt =>
        .unknownWatch looked_ rebuilt
    | some slot => exact handleEvent_does looked_
  next unwatched =>
    -- Only the overflow of the queue and the removal of a watch have no slot.
    refine handleEvent_does_none ?_
    by_cases noWatch : ev.wd = -1
    · exact .inl (wellFormed.noWatch noWatch)
    · exact .inr (wellFormed.ignored (by simpa [noWatch] using unwatched))

/-- Where the program goes on, the event hangs or has been handled. -/
theorem handleNextEvent_handles (wellFormed : ev.WellFormed)
    (done : handleNextEvent opts world program ev nextEv firstTry = .ok outcome) :
    outcome.Hangs program ev nextEv firstTry ∨ Completes world program ev nextEv outcome := by
  -- Of what is done about an event, this is the part without an exit.
  have does : Does opts world program ev nextEv firstTry _ := handleNextEvent_does wellFormed
  rwa [done] at does

/-- Where the program exits, there is a reason. -/
theorem handleNextEvent_exits (wellFormed : ev.WellFormed) {exit : Exit}
    (failed : handleNextEvent opts world program ev nextEv firstTry = .error exit) :
    Exits opts world program ev nextEv exit := by
  have does : Does opts world program ev nextEv firstTry _ := handleNextEvent_does wellFormed
  rwa [failed] at does

/-- A directory moved away is handled as such. -/
theorem handleEvent_movedFrom (evCacheSlot : Option Nat) (kind : ev.kind = .movedFrom) :
    handleEvent opts world program ev evCacheSlot nextEv firstTry =
      handleMovedFrom opts world program ev evCacheSlot nextEv firstTry := by
  unfold InotifyEvent.kind at kind
  split_ifs at kind with created deleted moved
  rw [handleEvent, if_neg created, if_neg deleted, if_pos moved]

/-- The last event in the buffer hangs at the first look, if a directory in the cache moved away. -/
theorem handleNextEvent_first {slot : Nat} (kind : ev.kind = .movedFrom)
    (found : findWatch program.cache ev.wd.toInt = some slot) :
    handleNextEvent opts world program ev none true =
      .ok ⟨-1, ⟨ev, none, .hanging, false⟩, program.counted⟩ := by
  rw [handleNextEvent]
  -- With or without a look into the cache, the flags are those of a directory moved away.
  split
  · rw [findWatchChecked, found]
    exact handleEvent_movedFrom (some slot) kind
  · exact handleEvent_movedFrom none kind

/-- A directory moved away is handled at the first look only if its watch is unknown. -/
theorem handleNextEvent_retries (wellFormed : ev.WellFormed) (kind : ev.kind = .movedFrom)
    (done : handleNextEvent opts world program ev none firstTry = .ok outcome)
    (positive : 0 < outcome.evLen) :
    outcome.handling.action = .unknownWatch ∨ firstTry = false := by
  -- By cases on the try, and at the first one on whether the watch is known.
  cases firstTry with
  | false => exact .inr rfl
  | true =>
    left
    cases found : findWatch program.cache ev.wd.toInt with
    | some slot =>
      -- The event would hang.
      rw [handleNextEvent_first kind found] at done
      obtain rfl := Except.ok.inj done
      cases positive
    | none =>
      rcases handleNextEvent_handles wellFormed done with hangs | ⟨_, handles⟩
      · rw [hangs.evLen] at positive
        cases positive
      · exact handles.unknown found kind

end Handlers

end SysProg.Inotify
