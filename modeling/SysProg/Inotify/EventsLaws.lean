import SysProg.Inotify.Events

/-! Every event that was read is handled once, in the order of the stream. -/

namespace SysProg.Inotify

/-- What the kernel promises about its events. -/
structure InotifyEvent.WellFormed (ev : InotifyEvent) : Prop where
  /-- The name is not too long for the buffer. -/
  short : ev.name.length ≤ nameMax + 1
  /-- A name ends with a null byte. -/
  terminated : ev.name ≠ [] → 0 ∈ ev.name
  /-- Only the overflow of the queue has no watch descriptor. -/
  noWatch : ev.wd = -1 → ev.mask = inQOverflow
  /-- The removal of a watch is an event of its own. -/
  ignored : ev.has inIgnored = true → ev.mask = inIgnored

/-- The kernel returns whole events that fit into the buffer. -/
structure World.Sound (world : World) : Prop where
  nonempty : ∀ number count evs, world.read number count = .events evs → evs ≠ []
  fits : ∀ number count evs, world.read number count = .events evs →
    (encodeAll evs).length ≤ count
  wellFormed : ∀ number count evs, world.read number count = .events evs →
    ∀ ev ∈ evs, ev.WellFormed

/-- An event takes the bytes of its encoding. -/
@[simp] theorem length_encode (ev : InotifyEvent) : ev.encode.length = ev.size := by
  simp [InotifyEvent.encode, InotifyEvent.size, sizeofInotifyEvent]
  omega

/-- The bytes of events, the first one first. -/
theorem encodeAll_cons (ev : InotifyEvent) (evs : List InotifyEvent) :
    encodeAll (ev :: evs) = ev.encode ++ encodeAll evs :=
  List.flatMap_cons

/-- The bytes of two lists of events. -/
theorem encodeAll_append (first second : List InotifyEvent) :
    encodeAll (first ++ second) = encodeAll first ++ encodeAll second :=
  List.flatMap_append

/-- Events take at least the bytes of their first one. -/
theorem length_encodeAll_cons (ev : InotifyEvent) (evs : List InotifyEvent) :
    (encodeAll (ev :: evs)).length = ev.size + (encodeAll evs).length := by
  rw [encodeAll_cons, List.length_append, length_encode]

/-- No event is empty. -/
theorem size_pos (ev : InotifyEvent) : 16 ≤ ev.size :=
  Nat.le_add_right _ _

/-- An event that is in the buffer is decoded. -/
theorem decode_of_holds {ev : InotifyEvent} (wellFormed : ev.WellFormed) {buf : Memory}
    {start : Nat} (holds : buf.Holds start ev.encode) : decode buf start = ev := by
  -- The buffer holds the fields of the event one after the other, in the order of the structure.
  obtain ⟨wd, rest⟩ := Memory.holds_append.mp holds
  obtain ⟨mask, rest⟩ := Memory.holds_append.mp rest
  obtain ⟨cookie, rest⟩ := Memory.holds_append.mp rest
  obtain ⟨len, name⟩ := Memory.holds_append.mp rest
  simp only [Memory.length_bytesOf, Nat.add_assoc, Nat.reduceAdd] at mask cookie len name
  -- The length of a name fits in the field that says how much is to be read of it.
  have short : (UInt32.ofNat ev.name.length).toNat = ev.name.length := by
    have bound := wellFormed.short
    rw [UInt32.toNat_ofNat', Nat.mod_eq_of_lt (by simp only [nameMax] at bound; omega)]
  rw [decode, Memory.word_of_holds wd, Memory.word_of_holds mask, Memory.word_of_holds cookie,
    Memory.word_of_holds len, short, Memory.load_of_holds name, Int32.toInt32_toUInt32]

/-- Only events in the valid part of the buffer are decoded. -/
theorem processNextInotifyEvent_eq {opts : Options} {world : World} {program : Program}
    {buf : Memory} {start : Nat} {bufSize : Int} {firstTry : Bool} {ev : InotifyEvent}
    {rest : List InotifyEvent} (wellFormed : ∀ other ∈ ev :: rest, other.WellFormed)
    (holds : buf.Holds start (encodeAll (ev :: rest)))
    (last : rest = [] → bufSize ≤ ev.size) (more : rest ≠ [] → ev.size < bufSize) :
    processNextInotifyEvent opts world program buf start bufSize firstTry =
      handleNextEvent opts world program ev rest.head? firstTry := by
  -- The event at the pointer, and behind it the others of the buffer.
  rw [encodeAll_cons] at holds
  obtain ⟨here, after⟩ := Memory.holds_append.mp holds
  have first := decode_of_holds (wellFormed ev List.mem_cons_self) here
  simp only [processNextInotifyEvent, first]
  -- The second event is looked at only if the buffer holds one, as bufSize says.
  cases rest with
  | nil => rw [if_neg (not_lt.mpr (last rfl)), List.head?_nil]
  | cons next rest =>
    rw [encodeAll_cons, length_encode] at after
    have second := decode_of_holds (wellFormed next (by simp)) (Memory.holds_append.mp after).1
    rw [if_pos (more (by simp)), second, List.head?_cons]

/-- A computation that satisfies a postcondition, and uses no slot that was not looked up. -/
def Safe {α : Type} (computation : Except Exit α) (post : α → Prop) : Prop :=
  match computation with
  | .ok result => post result
  | .error exit => exit ≠ .undefined

/-- One computation after the other. -/
theorem Safe.bind {α β : Type} {computation : Except Exit α} {next : α → Except Exit β}
    {middle : α → Prop} {post : β → Prop} (first : Safe computation middle)
    (second : ∀ result, middle result → Safe (next result) post) :
    Safe (computation >>= next) post := by
  cases computation with
  | ok result => exact second result first
  | error exit => exact first

/-- A computation that satisfies a stronger postcondition. -/
theorem Safe.weaken {α : Type} {computation : Except Exit α} {strong weak : α → Prop}
    (safe : Safe computation strong) (weaker : ∀ result, strong result → weak result) :
    Safe computation weak := by
  cases computation with
  | ok result => exact weaker result safe
  | error exit => exact safe

/-- Visiting a subtree uses no slot that was not looked up. -/
theorem watchSubtree_safe (cache : Cache) (visits : List Visit) :
    Safe (watchSubtree cache visits) fun _ => True := by
  -- By induction on the visits, none of which reads a slot that does not exist.
  induction visits generalizing cache with
  | nil => trivial
  | cons visit visits ih =>
    rw [watchSubtree, List.foldlM_cons]
    -- A visit ends the program or adds a slot; every branch is safe.
    have visited : Safe (traverseTree cache visit) fun _ => True := by
      rw [traverseTree]
      split
      · trivial
      · split
        · trivial
        · exact nofun
        · split <;> trivial
    exact visited.bind fun next _ => ih next

/-- Building the cache anew reads no events. -/
theorem reinitialize_safe (program : Program) (world : World) :
    Safe (program.reinitialize world) fun next => next.inotifyReadCnt = program.inotifyReadCnt :=
  (watchSubtree_safe [] _).bind fun _ _ => rfl

/-- Ceasing to monitor a root directory changes neither the cache nor the number of reads. -/
theorem zapRootDirPath_safe (program : Program) (path : List UInt8) :
    Safe (program.zapRootDirPath path) fun next =>
      next.inotifyReadCnt = program.inotifyReadCnt ∧ next.cache = program.cache := by
  rw [Program.zapRootDirPath]
  -- The root is found in the array, or the program ends.
  split
  · exact nofun
  · split
    · exact nofun
    · exact ⟨rfl, rfl⟩

/-- The pathname in a slot of the cache. -/
theorem cachedPath_safe {cache : Cache} {slot : Nat} (there : slot < cache.length) :
    Safe (cachedPath cache (some slot)) fun _ => True := by
  rw [cachedPath, Option.bind_some, List.getElem?_eq_getElem there]
  trivial

/-- The check of the cache does not change what was done about an event. -/
theorem finish_safe {opts : Options} {world : World} {program : Program} {handling : Handling}
    {evLen : Int} {post : Outcome → Prop}
    (done : post ⟨evLen, handling, { program with eventCnt := program.eventCnt + 1 }⟩) :
    Safe (finish opts world program handling evLen) post := by
  rw [finish]
  -- The check may exit, which is safe.
  split
  · exact nofun
  · exact done

/-- Looking for an expected watch descriptor finds a slot of the cache, or nothing. -/
theorem findWatchChecked_safe (opts : Options) (cache : Cache) (wd : Int) :
    Safe (findWatchChecked opts cache wd) fun found => ∀ slot, found = some slot →
      slot < cache.length := by
  rw [findWatchChecked]
  -- A slot that was found is within the cache; without one the caller builds the cache anew.
  split
  · rename_i slot found
    rintro _ ⟨⟩
    exact (List.findIdx?_eq_some_iff_getElem.mp found).1
  · split
    · exact nofun
    · exact nofun

/-- The two events of a rename. -/
def Matches (ev nextEv : InotifyEvent) : Prop :=
  ev.isMovedFromDir = true ∧ nextEv.has inMovedTo = true ∧ nextEv.cookie = ev.cookie

/-- What handling an event can lead to. -/
structure Outcome.Fits (outcome : Outcome) (program : Program) (ev : InotifyEvent)
    (nextEv : Option InotifyEvent) (firstTry : Bool) : Prop where
  event : outcome.handling.event = ev
  /-- The event hangs, ends the buffer, is handled alone, or is handled with its partner. -/
  evLen : (outcome.evLen = -1 ∧ nextEv = none ∧ firstTry = true) ∨
    (outcome.evLen = inotifyReadBufLen ∧ outcome.handling.partner = none ∧
      outcome.handling.reinitialized = true) ∨
    (outcome.evLen = ev.size ∧ outcome.handling.partner = none ∧
      outcome.handling.reinitialized = false) ∨
    ∃ partner, nextEv = some partner ∧ Matches ev partner ∧
      outcome.evLen = ev.size + partner.size ∧ outcome.handling.partner = some partner ∧
      outcome.handling.reinitialized = false
  /-- A directory has been moved out only if no partner is there, and none arrives any more. -/
  movedOut : outcome.handling.action = .movedOut →
    (∀ partner, nextEv = some partner → ¬ Matches ev partner) ∧
      (nextEv = none → firstTry = false)
  inotifyReadCnt : outcome.program.inotifyReadCnt = program.inotifyReadCnt

section Handlers

variable {opts : Options} {world : World} {program : Program} {ev : InotifyEvent}
  {nextEv : Option InotifyEvent} {firstTry : Bool}

/-- Ending the handling of a single event. -/
theorem finish_fits {next : Program} (same : next.inotifyReadCnt = program.inotifyReadCnt)
    {action : Action} (movedOut : action = .movedOut →
      (∀ partner, nextEv = some partner → ¬ Matches ev partner) ∧
        (nextEv = none → firstTry = false)) :
    Safe (finish opts world next ⟨ev, none, action, false⟩ ev.size)
      fun outcome => outcome.Fits program ev nextEv firstTry :=
  finish_safe ⟨rfl, .inr (.inr (.inl ⟨rfl, rfl, rfl⟩)), movedOut, same⟩

/-- Building the cache anew ends the buffer. -/
theorem rebuild_fits {next : Program} (same : next.inotifyReadCnt = program.inotifyReadCnt)
    {action : Action} (movedOut : action = .movedOut →
      (∀ partner, nextEv = some partner → ¬ Matches ev partner) ∧
        (nextEv = none → firstTry = false)) :
    Safe (rebuild world next ev action) fun outcome => outcome.Fits program ev nextEv firstTry :=
  (reinitialize_safe next world).bind fun _ same_ =>
    ⟨rfl, .inr (.inl ⟨rfl, rfl, rfl⟩), movedOut, same_.trans same⟩

/-- Watching a new subdirectory. -/
theorem handleCreate_fits {slot : Nat} (there : slot < program.cache.length) :
    Safe (handleCreate opts world program ev (some slot))
      fun outcome => outcome.Fits program ev nextEv firstTry := by
  -- The slot is within the cache, so its path can be read.
  refine (cachedPath_safe there).bind fun path _ => ?_
  -- A directory that is in the cache already is not watched again.
  have watched : Safe (if pathnameInCache program.cache (fullPathOf path ev.nameString) then
      .ok program.cache
    else watchSubtree program.cache
      (world.visits program.eventCnt (fullPathOf path ev.nameString))) fun _ => True := by
    split
    · trivial
    · exact watchSubtree_safe _ _
  exact watched.bind fun cache _ => finish_fits (by rfl) (by nofun)

/-- Removing a deleted directory. -/
theorem handleDeleteSelf_fits {slot : Nat} (there : slot < program.cache.length) :
    Safe (handleDeleteSelf opts world program ev (some slot))
      fun outcome => outcome.Fits program ev nextEv firstTry := by
  -- The slot is within the cache, so its path can be read.
  refine (cachedPath_safe there).bind fun path _ => ?_
  -- A root directory is taken from the array of roots; that reads no event.
  have zapped : Safe (if program.isRootDirPath path then program.zapRootDirPath path
      else .ok program) fun next => next.inotifyReadCnt = program.inotifyReadCnt := by
    split
    · exact (zapRootDirPath_safe program path).weaken fun _ both => both.1
    · rfl
  exact zapped.bind fun next same => finish_fits (by exact same) (by nofun)

/-- Zapping a directory that was moved out. -/
theorem handleMovedOut_fits {slot : Nat} (there : slot < program.cache.length)
    (alone : (∀ partner, nextEv = some partner → ¬ Matches ev partner) ∧
      (nextEv = none → firstTry = false)) :
    Safe (handleMovedOut opts world program ev (some slot))
      fun outcome => outcome.Fits program ev nextEv firstTry := by
  refine (cachedPath_safe there).bind fun path _ => ?_
  dsimp only
  -- zapSubtree() may fail, and then the cache is built anew; both ways use this event only.
  split
  · exact rebuild_fits (by rfl) fun _ => alone
  · exact finish_fits (by rfl) fun _ => alone

/-- Rewriting the pathnames after a rename. -/
theorem handleRename_fits {slot : Nat} (there : slot < program.cache.length)
    {partner : InotifyEvent} (partners : Matches ev partner) :
    Safe (handleRename opts world program ev (some slot) partner)
      fun outcome => outcome.Fits program ev (some partner) firstTry := by
  -- The partner's directory is looked up too, and either both paths are read or the cache is
  -- rebuilt.
  refine (findWatchChecked_safe opts program.cache partner.wd.toInt).bind fun found inside => ?_
  cases found with
  | none => exact rebuild_fits (by rfl) (by nofun)
  | some other =>
    refine (cachedPath_safe there).bind fun _ _ => ?_
    refine (cachedPath_safe (inside other rfl)).bind fun _ _ => finish_safe ?_
    -- The partner is counted with the event, and they match.
    exact ⟨rfl, .inr (.inr (.inr ⟨partner, rfl, partners, rfl, rfl, rfl⟩)), nofun, rfl⟩

/-- Handling the first event of a rename. -/
theorem handleMovedFrom_fits {slot : Nat} (there : slot < program.cache.length)
    (moved : ev.isMovedFromDir = true) :
    Safe (handleMovedFrom opts world program ev (some slot) nextEv firstTry)
      fun outcome => outcome.Fits program ev nextEv firstTry := by
  rw [handleMovedFrom.eq_def]
  -- With a second event at hand it is compared, without one the first try asks for it.
  cases nextEv with
  | some partner =>
    dsimp only
    split
    · rename_i both
      -- An IN_MOVED_TO with the same cookie: a rename inside the trees.
      obtain ⟨arrives, same⟩ := Bool.and_eq_true_iff.mp both
      exact handleRename_fits there ⟨moved, arrives, of_decide_eq_true same⟩
    -- Any other second event: the directory was moved out.
    · rename_i apart
      refine handleMovedOut_fits there ⟨?_, nofun⟩
      rintro _ ⟨⟩ ⟨_, arrives, same⟩
      exact apart (Bool.and_eq_true_iff.mpr ⟨arrives, decide_eq_true same⟩)
  | none =>
    dsimp only
    split
    -- No second event yet: the event is returned for a second read.
    · rename_i first
      exact ⟨rfl, .inl ⟨rfl, rfl, first⟩, nofun, rfl⟩
    -- The second read brought none either.
    · rename_i second
      exact handleMovedOut_fits there ⟨nofun, fun _ => by simpa using second⟩

/-- Handling the overflow of the queue. -/
theorem handleOverflow_fits :
    Safe (handleOverflow opts world program ev)
      fun outcome => outcome.Fits program ev nextEv firstTry :=
  (reinitialize_safe program world).bind fun _ same =>
    finish_safe ⟨rfl, .inr (.inl ⟨rfl, rfl, rfl⟩), nofun, same⟩

/-- Removing an unmounted directory. -/
theorem handleUnmount_fits {slot : Nat} (there : slot < program.cache.length) :
    Safe (handleUnmount opts world program ev (some slot))
      fun outcome => outcome.Fits program ev nextEv firstTry :=
  (cachedPath_safe there).bind fun _ _ => finish_fits (by rfl) (by nofun)

/-- Ceasing to monitor a root directory that was moved. -/
theorem handleMoveSelf_fits (path : List UInt8) :
    Safe (handleMoveSelf opts world program ev path)
      fun outcome => outcome.Fits program ev nextEv firstTry := by
  refine (zapRootDirPath_safe program path).bind fun next same => ?_
  -- zapSubtree() may fail, and then the cache is built anew.
  split
  · exact rebuild_fits (by exact same.1) (by nofun)
  · exact finish_fits (by exact same.1) (by nofun)

/-- Handling an event whose slot was looked up. -/
theorem handleEvent_fits {slot : Nat} (there : slot < program.cache.length) :
    Safe (handleEvent opts world program ev (some slot) nextEv firstTry)
      fun outcome => outcome.Fits program ev nextEv firstTry := by
  rw [handleEvent]
  -- The chain of conditions of processNextInotifyEvent(), in its order.
  split_ifs with create deleted moved overflow unmounted rootMoved
  · exact handleCreate_fits there
  · exact handleDeleteSelf_fits there
  · exact handleMovedFrom_fits there moved
  · exact handleOverflow_fits
  · exact handleUnmount_fits there
  · refine (cachedPath_safe there).bind fun path _ => ?_
    split
    · exact handleMoveSelf_fits path
    · exact finish_fits (by rfl) (by nofun)
  · exact finish_fits (by rfl) (by nofun)

/-- An event whose slot was not looked up needs none. -/
theorem handleEvent_fits_none (mask : ev.mask = inQOverflow ∨ ev.mask = inIgnored) :
    Safe (handleEvent opts world program ev none nextEv firstTry)
      fun outcome => outcome.Fits program ev nextEv firstTry := by
  -- No watch belongs to the event, so the conditions are decided by its mask.
  rcases mask with mask | mask
  · rw [handleEvent]
    simp only [InotifyEvent.has, InotifyEvent.isMovedFromDir, mask]
    rw [if_neg (by decide), if_neg (by decide), if_neg (by decide), if_pos (by decide)]
    exact handleOverflow_fits
  · rw [handleEvent]
    simp only [InotifyEvent.has, InotifyEvent.isMovedFromDir, mask]
    rw [if_neg (by decide), if_neg (by decide), if_neg (by decide), if_neg (by decide),
      if_neg (by decide), if_neg (by decide)]
    exact finish_fits (by rfl) (by nofun)

/-- What handling a well-formed event can lead to. -/
theorem handleNextEvent_fits (wellFormed : ev.WellFormed) :
    Safe (handleNextEvent opts world program ev nextEv firstTry)
      fun outcome => outcome.Fits program ev nextEv firstTry := by
  rw [handleNextEvent]
  -- The watch is looked up for every event but an overflow and IN_IGNORED.
  split
  · refine (findWatchChecked_safe opts program.cache ev.wd.toInt).bind fun found inside => ?_
    cases found with
    | none => exact rebuild_fits (by rfl) (by nofun)
    | some slot => exact handleEvent_fits (inside slot rfl)
  · rename_i unwatched
    refine handleEvent_fits_none ?_
    -- The event was left out of the lookup for one of two reasons.
    by_cases noWatch : ev.wd = -1
    · exact .inl (wellFormed.noWatch noWatch)
    · exact .inr (wellFormed.ignored (by simpa [noWatch] using unwatched))

end Handlers

end SysProg.Inotify
