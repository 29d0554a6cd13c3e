import SysProg.Inotify.EventLoopLaws

/-! What each call does with the events that it reads, and when it ends. -/

namespace SysProg.Inotify

variable {world : World} {start : Program}

/-- A read that brings no events, or events of which the last one does not hang. -/
def ReadResult.Settles (result : ReadResult) : Prop :=
  ∀ evs, result = .events evs → ∀ last, evs.getLast? = some last → last.kind ≠ .movedFrom

/--
After this read, no event hangs any more: the last one is of another kind, or it is the only one,
and is looked at for the second time.
-/
def HangsNoMore (number : Nat) (state : LoopState) (pending : List InotifyEvent) : Prop :=
  number < state.program.inotifyReadCnt → (state.firstTry = false ∧ pending.length = 1) ∨
    ∀ last, pending.getLast? = some last → last.kind ≠ .movedFrom

/-- How far the loop is from its end, where it does reads up to this one at most. -/
def distance (number : Nat) (state : LoopState) (pending : List InotifyEvent) : Nat ×ₗ Nat :=
  toLex (number + 1 - state.program.inotifyReadCnt, pending.length)

/-- Handling events leaves the last one, and no event hangs after the read that settles. -/
theorem Advances.settled (sound : world.Sound) {number : Nat}
    (settles : ∀ count, (world.read number count).Settles) {state next : LoopState}
    {pending pendingNext : List InotifyEvent} (settled : HangsNoMore number state pending)
    (advances : Advances world state next pending pendingNext) :
    HangsNoMore number next pendingNext ∧
      distance number next pendingNext < distance number state pending := by
  cases advances with
  | @handles taken _ split_ some_ first reads =>
    subst split_
    have shorter := List.length_pos_of_ne_nil some_
    constructor
    · intro late
      right
      intro last found
      rw [reads] at late
      rcases settled late with ⟨_, one⟩ | settled
      · -- Only one event was left, and it has been handled.
        rw [List.length_append] at one
        have none_ : pendingNext = [] := List.length_eq_zero_iff.mp (by omega)
        rw [none_] at found
        cases found
      · refine settled last ?_
        rw [List.getLast?_append, found]
        rfl
    · rw [distance, distance, reads, Prod.Lex.toLex_lt_toLex]
      refine .inr ⟨rfl, ?_⟩
      rw [List.length_append]
      omega
  | @hangs ev more only kind first second reads arrives =>
    subst only
    -- An event hangs, so the read that settles is still to come, or is this one.
    have early : state.program.inotifyReadCnt ≤ number := by
      by_contra late
      rcases settled (not_le.mp late) with ⟨again, _⟩ | settled
      · rw [first] at again
        cases again
      · exact settled ev rfl kind
    constructor
    · intro late
      rw [reads] at late
      have here : state.program.inotifyReadCnt = number := by omega
      rw [here] at arrives
      rcases arrives with rfl | ⟨count, answer⟩
      · exact .inl ⟨second, rfl⟩
      · right
        intro last found
        cases more with
        | nil => exact absurd rfl (sound.nonempty _ _ _ answer)
        | cons other others =>
          rw [List.getLast?_cons_cons] at found
          exact settles count _ answer last found
    · rw [distance, distance, reads, Prod.Lex.toLex_lt_toLex]
      refine .inl ?_
      dsimp only
      omega

/-- When a read brings no event that hangs, the loop comes to its end. -/
theorem processEvents_ends (opts : Options) (sound : world.Sound) {number : Nat}
    (settles : ∀ count, (world.read number count).Settles) {state : LoopState}
    {log : List LogEntry} {pending : List InotifyEvent} (safe : SafeLog log)
    (invariant : LoopInvariant world start state log pending)
    (settled : HangsNoMore number state pending) :
    ∃ enough result, result.2 ≠ .outOfFuel ∧
      ∀ fuel, enough ≤ fuel → processEvents opts world fuel state = result := by
  -- The measure counts the reads up to the one that settles, and then the events that are left.
  induction measure_ : distance number state pending using WellFoundedLT.induction
    generalizing state log pending with
  | ind measure_ ih =>
    subst measure_
    cases iterate opts sound safe invariant with
    | returns _ ran =>
      refine ⟨1, ([], .returned state.program), nofun, fun fuel enough => ?_⟩
      obtain ⟨less, rfl⟩ := Nat.exists_eq_add_of_le' enough
      exact ran less
    | exits more exit _ _ _ _ ran =>
      refine ⟨1, (more, .exited exit), nofun, fun fuel enough => ?_⟩
      obtain ⟨less, rfl⟩ := Nat.exists_eq_add_of_le' enough
      exact ran less
    | abandons handling next _ _ _ over_ ran =>
      -- Nothing is left of the buffer, so the next test of the loop is its last one.
      refine ⟨2, ([.event handling], .returned next.program), nofun, fun fuel enough => ?_⟩
      obtain ⟨less, rfl⟩ := Nat.exists_eq_add_of_le' enough
      rw [ran, processEvents, if_neg (not_lt.mpr over_)]
    | goesOn entry next pendingNext safe invariant advances ran =>
      obtain ⟨settled, smaller⟩ := advances.settled sound settles settled
      obtain ⟨enough, result, ended, ends⟩ := ih _ smaller safe invariant settled rfl
      refine ⟨enough + 1, (entry :: result.1, result.2), ended, fun fuel more => ?_⟩
      obtain ⟨less, rfl⟩ := Nat.exists_eq_add_of_le' (Nat.le_of_add_left_le more)
      rw [ran, ends less (by omega)]

/-- The number of bytes that the first read of a call asks for. -/
def Options.count (opts : Options) : Nat :=
  if 0 < opts.readBufferSize then opts.readBufferSize else inotifyReadBufLen

/-- The variables of the loop when the first read has brought events. -/
def LoopState.first (program : Program) (buf : Memory) (evs : List InotifyEvent) : LoopState :=
  { program := { program with inotifyReadCnt := program.inotifyReadCnt + 1 }
    buf := buf.store 0 (encodeAll evs)
    evp := 0
    numRead := (encodeAll evs).length
    firstTry := true }

/-- The invariant holds after the first read. -/
theorem loopInvariant_first {opts : Options} (sound : world.Sound)
    (size : opts.readBufferSize ≤ inotifyReadBufLen) {program : Program} (buf : Memory)
    {evs : List InotifyEvent}
    (answer : world.read program.inotifyReadCnt opts.count = .events evs) :
    LoopInvariant world program (.first program buf evs) [.read (.events evs)] evs := by
  constructor
  case traced => exact .read .start answer
  case queue => rfl
  case steady => exact fun handling mem => by simp at mem
  case wellFormed => exact sound.wellFormed _ _ _ answer
  case holds => exact Memory.holds_store buf 0 _
  case inside =>
    -- The kernel brings no more bytes than it is asked for.
    have fits := sound.fits _ _ _ answer
    rw [Options.count] at fits
    dsimp only [LoopState.first]
    split at fits <;> omega
  case numRead => exact .inl (by simp [LoopState.first])
  case retry => exact nofun
  case fresh => exact fun _ => .inl rfl

/-- A call whose first read brings events goes through the loop. -/
theorem processInotifyEvents_of_events {opts : Options} {program : Program} (buf : Memory)
    {evs : List InotifyEvent}
    (answer : world.read program.inotifyReadCnt opts.count = .events evs) (fuel : Nat) :
    processInotifyEvents opts world fuel program buf =
      (.read (.events evs) :: (processEvents opts world fuel (.first program buf evs)).1,
        (processEvents opts world fuel (.first program buf evs)).2) := by
  rw [Options.count] at answer
  simp only [processInotifyEvents, answer, LoopState.first]

/-- A call whose first read brings no events is the end of the program. -/
theorem processInotifyEvents_of_failed {opts : Options} {program : Program} (buf : Memory)
    (failed : ∀ evs, world.read program.inotifyReadCnt opts.count ≠ .events evs) (fuel : Nat) :
    processInotifyEvents opts world fuel program buf =
      ([.read (world.read program.inotifyReadCnt opts.count)], .exited .failure) := by
  -- The first read of the call brings no events, and the program exits.
  rw [Options.count] at failed ⊢
  rw [processInotifyEvents.eq_def]
  dsimp only
  split
  next evs answer => exact absurd answer (failed evs)
  next => rfl

/-- That the first read brings no events is a reason to exit. -/
theorem ends_of_failed {opts : Options} {program : Program} {result : ReadResult}
    (failed : ∀ evs, result ≠ .events evs) :
    Ends opts world program [.read result] .failure := by
  have fails : result = .failed ∨ result = .nothing ∨
      (([] : List LogEntry) = [] ∧ result = .eintr) := by
    -- An interrupted first read is not repeated.
    cases result with
    | events evs => exact absurd rfl (failed evs)
    | eintr => exact .inr (.inr ⟨rfl, rfl⟩)
    | failed => exact .inl rfl
    | nothing => exact .inr (.inl rfl)
  exact .read fails

/--
Each call handles the events that it reads once and in order and does what it should about each, and
ends if one of its reads brings no event that hangs.
-/
theorem processInotifyEvents_correct (opts : Options) (world : World) (sound : world.Sound)
    (size : opts.readBufferSize ≤ inotifyReadBufLen) (program : Program) (buf : Memory) :
    (∀ fuel, CallCorrect opts world program (processInotifyEvents opts world fuel program buf).1
        (processInotifyEvents opts world fuel program buf).2) ∧
      ((∃ number, program.inotifyReadCnt ≤ number ∧
          ∀ count, (world.read number count).Settles) →
        ∃ enough result, result.2 ≠ .outOfFuel ∧
          ∀ fuel, enough ≤ fuel → processInotifyEvents opts world fuel program buf = result) := by
  by_cases some_ : ∃ evs, world.read program.inotifyReadCnt opts.count = .events evs
  · obtain ⟨evs, answer⟩ := some_
    have invariant := loopInvariant_first sound size buf answer
    constructor
    · intro fuel
      rw [processInotifyEvents_of_events buf answer]
      exact processEvents_correct sound fuel (safeLog_read _) invariant
    · rintro ⟨number, later, settles⟩
      -- If it is the first read that settles, its last event does not hang.
      have settled : HangsNoMore number (.first program buf evs) evs := by
        intro early
        have here : program.inotifyReadCnt = number := by
          dsimp only [LoopState.first] at early
          omega
        rw [here] at answer
        exact .inr fun last found => settles opts.count evs answer last found
      obtain ⟨enough, result, ended, ends⟩ :=
        processEvents_ends opts sound settles (safeLog_read _) invariant settled
      refine ⟨enough, (.read (.events evs) :: result.1, result.2), ended, fun fuel more => ?_⟩
      rw [processInotifyEvents_of_events buf answer, ends fuel more]
  · -- The program exits, and has handled nothing.
    have ran := processInotifyEvents_of_failed buf fun evs answer => some_ ⟨evs, answer⟩
    constructor
    · intro fuel
      rw [ran]
      refine ⟨safeLog_read _, ⟨_, .read .start rfl, nofun⟩, nofun, fun exit same => ?_, nofun⟩
      obtain rfl := Ending.exited.inj same
      exact ends_of_failed fun evs answer => some_ ⟨evs, answer⟩
    · intro _
      refine ⟨0, ([.read (world.read program.inotifyReadCnt opts.count)], .exited .failure), ?_,
        fun fuel _ => ran fuel⟩
      nofun

/-- An event about a name in the directory with the watch descriptor 1. -/
def nameEvent (mask cookie : UInt32) (letter : UInt8) : InotifyEvent :=
  ⟨1, mask, cookie, [letter, 0, 0, 0]⟩

/-- An event about a name is well-formed if it does not say that a watch was removed. -/
theorem nameEvent_wellFormed {mask cookie : UInt32} {letter : UInt8}
    (kept : mask &&& inIgnored = 0) : (nameEvent mask cookie letter).WellFormed := by
  constructor
  case short =>
    show 4 ≤ nameMax + 1
    decide
  case terminated => exact fun _ => by simp [nameEvent]
  case noWatch => exact nofun
  -- The mask does not have the bit of IN_IGNORED.
  case ignored => exact fun ignored => absurd kept (of_decide_eq_true ignored)

/-- The slot of a directory. -/
def slotOf (wd : Watch) (path : List UInt8) : Slot :=
  Slot.of wd (snprintf path)

/--
A system in which "b" is created, "d" is renamed to "e" while a read ends between the two events,
and "b" is moved out of the tree.
-/
def movesWorld : World where
  read number count :=
    if count < 40 then .failed
    else match number with
      | 0 => .events [nameEvent 0x40000100 0 98, nameEvent 0x40000040 7 100]
      | 1 => .events [nameEvent 0x40000080 7 101, nameEvent 0x40000040 9 98]
      | _ => .eintr
  visits _ path := [⟨snprintf path, true, .watching (watchOf 3)⟩]
  rmWatch _ _ := true
  checkExits _ := false

/-- Each read of this system brings two events about names, or none. -/
theorem movesWorld_read {number count : Nat} {evs : List InotifyEvent}
    (answer : movesWorld.read number count = .events evs) :
    40 ≤ count ∧ ∃ mask cookie letter mask_ cookie_ letter_,
      evs = [nameEvent mask cookie letter, nameEvent mask_ cookie_ letter_] ∧
        mask &&& inIgnored = 0 ∧ mask_ &&& inIgnored = 0 := by
  dsimp only [movesWorld] at answer
  -- A read into a buffer that is too small fails.
  split at answer
  · cases answer
  next enough =>
    refine ⟨by omega, ?_⟩
    split at answer
    · exact ⟨_, _, _, _, _, _, (ReadResult.events.inj answer).symm, by decide, by decide⟩
    · exact ⟨_, _, _, _, _, _, (ReadResult.events.inj answer).symm, by decide, by decide⟩
    · cases answer

/-- This system keeps the promises of the kernel. -/
theorem movesWorld_sound : movesWorld.Sound := by
  constructor
  case nonempty =>
    intro number count evs answer
    obtain ⟨_, _, _, _, _, _, _, rfl, _⟩ := movesWorld_read answer
    simp
  case fits =>
    intro number count evs answer
    obtain ⟨enough, _, _, _, _, _, _, rfl, _⟩ := movesWorld_read answer
    exact enough
  -- Both events of a read are such as the kernel makes.
  case wellFormed =>
    intro number count evs answer ev mem
    obtain ⟨_, _, _, _, _, _, _, rfl, kept, kept_⟩ := movesWorld_read answer
    simp only [List.mem_cons, List.not_mem_nil, or_false] at mem
    rcases mem with rfl | rfl
    · exact nameEvent_wellFormed kept
    · exact nameEvent_wellFormed kept_

/-- The program watches the tree of "a", in which there is "d". -/
def movesProgram : Program :=
  ⟨[slotOf (watchOf 1) [97], slotOf (watchOf 2) [97, 47, 100], Slot.empty],
    [some [97]], 0, 3, 0, 0⟩

/-- A call with two secondary reads, of which the first one brings the other event of a rename. -/
def movesLog : List LogEntry :=
  [.read (.events [nameEvent 0x40000100 0 98, nameEvent 0x40000040 7 100]),
    .event ⟨nameEvent 0x40000100 0 98, none, .created, false⟩,
    .read (.events [nameEvent 0x40000080 7 101, nameEvent 0x40000040 9 98]),
    .event ⟨nameEvent 0x40000040 7 100, some (nameEvent 0x40000080 7 101), .renamed, false⟩,
    .read .eintr, .event ⟨nameEvent 0x40000040 9 98, none, .movedOut, false⟩]

/-- The variables of the program after this call. -/
def movedProgram : Program :=
  ⟨[slotOf (watchOf 1) [97], slotOf (watchOf 2) [97, 47, 101], Slot.empty],
    [some [97]], 0, 3, 3, 5⟩

/-- This call is correct, and ends. -/
theorem processInotifyEvents_correct_moves :
    CallCorrect ⟨false, false, 0⟩ movesWorld movesProgram movesLog (.returned movedProgram) ∧
      ∃ enough result, result.2 ≠ .outOfFuel ∧ ∀ fuel, enough ≤ fuel →
        processInotifyEvents ⟨false, false, 0⟩ movesWorld fuel movesProgram (fun _ => 0) =
          result := by
  have correct := processInotifyEvents_correct ⟨false, false, 0⟩ movesWorld movesWorld_sound
    (by decide) movesProgram fun _ => 0
  have ran : processInotifyEvents ⟨false, false, 0⟩ movesWorld 7 movesProgram (fun _ => 0) =
      (movesLog, .returned movedProgram) := by decide +kernel
  constructor
  · have call := correct.1 7
    rwa [ran] at call
  · refine correct.2 ⟨2, by decide, fun count evs answer => ?_⟩
    -- The third read is interrupted, or fails because it asks for too few bytes.
    dsimp only [movesWorld] at answer
    split at answer <;> cases answer

section Endless

/-- The directory "d" is moved into the tree, where each rename has a cookie of its own. -/
def movedIn (round : Nat) : InotifyEvent :=
  nameEvent 0x40000080 (UInt32.ofNat (2 * round)) 100

/-- The directory "d" is moved out of the tree. -/
def movedAway (round : Nat) : InotifyEvent :=
  nameEvent 0x40000040 (UInt32.ofNat (2 * round + 1)) 100

/-- A system in which a directory is moved into the tree and out of it again and again. -/
def churnWorld : World where
  read number count :=
    if count < 40 then .failed else .events [movedIn number, movedAway number]
  visits number path := [⟨snprintf path, true, .watching (watchOf (number + 2))⟩]
  rmWatch _ _ := true
  checkExits _ := false

/-- Each read of this system brings the next two events. -/
theorem churnWorld_read {number count : Nat} {evs : List InotifyEvent}
    (answer : churnWorld.read number count = .events evs) :
    40 ≤ count ∧ evs = [movedIn number, movedAway number] := by
  dsimp only [churnWorld] at answer
  -- A read into a buffer that is too small fails.
  split at answer
  · cases answer
  next enough => exact ⟨by omega, (ReadResult.events.inj answer).symm⟩

/-- This system keeps the promises of the kernel, too. -/
theorem churnWorld_sound : churnWorld.Sound := by
  constructor
  case nonempty =>
    intro number count evs answer
    rw [(churnWorld_read answer).2]
    simp
  case fits =>
    intro number count evs answer
    obtain ⟨enough, rfl⟩ := churnWorld_read answer
    exact enough
  -- Both events of a read are such as the kernel makes.
  case wellFormed =>
    intro number count evs answer ev mem
    rw [(churnWorld_read answer).2] at mem
    simp only [List.mem_cons, List.not_mem_nil, or_false] at mem
    rcases mem with rfl | rfl <;> exact nameEvent_wellFormed (by decide)

/-- The cache when the directory is not in the tree. -/
def cacheWithout : Cache := [slotOf (watchOf 1) [97], Slot.empty]

/-- The cache when the directory is in the tree. -/
def cacheWith (wd : Watch) : Cache := [slotOf (watchOf 1) [97], slotOf wd [97, 47, 100]]

/-- The program watches "a", in which there is no other directory. -/
def churnProgram : Program := ⟨cacheWithout, [some [97]], 0, 3, 0, 0⟩

variable {opts : Options} {program : Program} {round : Nat}

/-- The events about names in the root directory are handled with its slot. -/
theorem handleNextEvent_name {mask cookie : UInt32} {letter : UInt8} {path : List UInt8}
    {others : Cache} (nextEv : Option InotifyEvent) (firstTry : Bool)
    (kept : mask &&& inIgnored = 0)
    (cache : program.cache = slotOf (watchOf 1) path :: others) :
    handleNextEvent opts world program (nameEvent mask cookie letter) nextEv firstTry =
      handleEvent opts world program (nameEvent mask cookie letter) (some 0) nextEv firstTry := by
  -- The watch of the event is that of the first slot.
  have found : findWatch program.cache (nameEvent mask cookie letter).wd.toInt = some 0 := by
    rw [cache]
    rfl
  have watched : (nameEvent mask cookie letter).wd ≠ -1 := by
    show (1 : Int32) ≠ -1
    decide
  have kept_ : (nameEvent mask cookie letter).has inIgnored = false :=
    decide_eq_false (not_not.mpr kept)
  rw [handleNextEvent, if_pos (by simp [watched, kept_]), findWatchChecked, found]
  rfl

/-- A directory is moved away. -/
theorem movedAway_kind (round : Nat) : (movedAway round).kind = .movedFrom := by
  have mask : (movedAway round).mask = 0x40000040 := rfl
  simp only [InotifyEvent.kind, InotifyEvent.has, InotifyEvent.isMovedFromDir, mask]
  decide

/-- The name of the directory, without its null bytes. -/
theorem nameString_nameEvent (mask cookie : UInt32) :
    (nameEvent mask cookie 100).nameString = [100] := by
  show [100, 0, 0, 0].takeWhile (fun byte : UInt8 => byte ≠ 0) = [100]
  decide

/-- The full pathname of the directory. -/
theorem fullPathOf_churn : fullPathOf [97] [100] = [97, 47, 100] := by
  decide

/-- No two renames have the same cookie, so the next event is not the partner. -/
theorem cookie_ne (round : Nat) : (movedIn (round + 1)).cookie ≠ (movedAway round).cookie := by
  intro same
  have same_ := congrArg UInt32.toNat same
  simp only [movedIn, movedAway, nameEvent, UInt32.toNat_ofNat'] at same_
  -- One of the numbers is even, the other one is odd.
  omega

/-- The event that the directory was moved away hangs at its first look. -/
theorem handleNextEvent_hangs {wd : Watch} (cache : program.cache = cacheWith wd) :
    handleNextEvent opts churnWorld program (movedAway round) none true =
      .ok ⟨-1, ⟨movedAway round, none, .hanging, false⟩, program.counted⟩ := by
  have found : findWatch program.cache (movedAway round).wd.toInt = some 0 := by
    rw [cache]
    rfl
  exact handleNextEvent_first (movedAway_kind round) found

/-- The directory is removed from the cache when the next event is another one. -/
theorem zapSubtree_churn (wd : Watch) :
    zapSubtree (fun _ => true) [97, 47, 100] (cacheWith wd) = (some 1, cacheWithout) := by
  -- The first directory is above the subtree, and the second one is its root.
  have root : isBelow [97, 47, 100] [97] = false := by decide
  have itself : isBelow [97, 47, 100] [97, 47, 100] = true := by decide
  simp [zapSubtree, cacheWith, cacheWithout, slotOf, Slot.of, root, itself, snprintf, pathMax,
    wd.property]

/-- At the second look, the directory is handled as moved out of the tree. -/
theorem handleNextEvent_movesOut {wd : Watch} (cache : program.cache = cacheWith wd) :
    handleNextEvent opts churnWorld program (movedAway round) (some (movedIn (round + 1))) false =
      .ok ⟨(movedAway round).size, ⟨movedAway round, none, .movedOut, false⟩,
        { program with cache := cacheWithout }.counted⟩ := by
  -- The directory's path and the name that moved away make the path of the subtree.
  have path : cachedPath program.cache (some 0) = .ok [97] := by
    rw [cache]
    rfl
  have zapped : zapSubtree (churnWorld.rmWatch program.eventCnt) [97, 47, 100] (cacheWith wd) =
      (some 1, cacheWithout) := zapSubtree_churn wd
  have name : (movedAway round).nameString = [100] := nameString_nameEvent _ _
  rw [movedAway, handleNextEvent_name _ false (by decide) cache, ← movedAway,
    handleEvent_movedFrom _ (movedAway_kind round), handleMovedFrom.eq_def]
  dsimp only
  -- The next event has another cookie, so no rename is seen.
  rw [if_neg (by simp [cookie_ne round])]
  -- The subtree is removed from the cache.
  refine bind_eq_ok.mpr ⟨[97], path, ?_⟩
  dsimp only
  rw [name, fullPathOf_churn, cache, zapped]
  dsimp only
  rw [finish, if_neg (by simp [churnWorld])]
  rfl

/-- The directory is watched again when it is back. -/
theorem watchSubtree_churn (number : Nat) :
    watchSubtree cacheWithout (churnWorld.visits number [97, 47, 100]) =
      .ok (cacheWith (watchOf (number + 2))) := by
  -- The kernel hands out a watch that the cache does not know.
  have unknown : findWatch cacheWithout (watchOf (number + 2)).val = none := by
    simp only [findWatch, cacheWithout, slotOf, watchOf, Slot.of, Slot.empty,
      List.findIdx?_eq_none_iff, List.mem_cons, List.not_mem_nil, or_false]
    -- Neither the slot of the root directory nor the free one has this number.
    rintro slot (rfl | rfl) <;> refine decide_eq_false fun same => ?_ <;> dsimp only at same <;>
      omega
  simp only [watchSubtree, churnWorld, List.foldlM_cons, List.foldlM_nil, traverseTree]
  simp only [Bool.not_true, Bool.false_eq_true, if_false, unknown]
  rfl

/-- The event that the directory is back is handled as a new subtree. -/
theorem handleNextEvent_comesBack (cache : program.cache = cacheWithout)
    (nextEv : Option InotifyEvent) :
    handleNextEvent opts churnWorld program (movedIn round) nextEv true =
      .ok ⟨(movedIn round).size, ⟨movedIn round, none, .created, false⟩,
        { program with cache := cacheWith (watchOf (program.eventCnt + 2)) }.counted⟩ := by
  have path : cachedPath program.cache (some 0) = .ok [97] := by
    rw [cache]
    rfl
  have name : (movedIn round).nameString = [100] := nameString_nameEvent _ _
  have mask : (movedIn round).mask = 0x40000080 := rfl
  have created : ((movedIn round).has inIsdir &&
      (movedIn round).has (inCreate ||| inMovedTo)) = true := by
    simp only [InotifyEvent.has, mask]
    decide
  -- The path is not in the cache, so the directory is watched anew.
  have new : pathnameInCache cacheWithout [97, 47, 100] = false := by decide
  rw [movedIn, handleNextEvent_name _ true (by decide) cache, ← movedIn, handleEvent,
    if_pos created]
  refine bind_eq_ok.mpr ⟨[97], path, ?_⟩
  dsimp only
  rw [name, fullPathOf_churn, cache, if_neg (by simp [new]), watchSubtree_churn]
  refine bind_eq_ok.mpr ⟨_, rfl, ?_⟩
  rw [finish, if_neg (by simp [churnWorld])]
  rfl

/-- An event that is handled alone leaves those behind it. -/
theorem LoopInvariant.alone {state : LoopState} {log : List LogEntry} {ev : InotifyEvent}
    {rest : List InotifyEvent} {action : Action} {after : Program} {firstTry : Bool}
    (invariant : LoopInvariant world start state log (ev :: rest))
    (tries : state.firstTry = firstTry)
    (done : handleNextEvent opts world state.program ev rest.head? firstTry =
      .ok ⟨ev.size, ⟨ev, none, action, false⟩, after⟩) :
    let next : LoopState :=
      { state with program := after, evp := state.evp + ev.size, firstTry := true }
    LoopInvariant world start next (log ++ [.event ⟨ev, none, action, false⟩]) rest ∧
      ∀ fuel, processEvents opts world (fuel + 1) state =
        (.event ⟨ev, none, action, false⟩ :: (processEvents opts world fuel next).1,
          (processEvents opts world fuel next).2) := by
  subst tries
  have large := size_pos ev
  have taken : (encodeAll [ev]).length = ev.size := by
    rw [encodeAll_singleton, length_encode]
  -- The event is handled, for a hanging one would have returned -1.
  have handles : Handles world state.program ev rest.head? ⟨ev, none, action, false⟩ after := by
    rcases handleNextEvent_handles (invariant.wellFormed ev List.mem_cons_self) done with
      hangs | ⟨_, handles⟩
    · have negative : (ev.size : Int) = -1 := hangs.evLen
      omega
    · exact handles
  -- It was the oldest one that was not handled.
  have queue : unhandled (log ++ [.event ⟨ev, none, action, false⟩]) = some rest := by
    rw [unhandled_append invariant.queue, replay, if_pos rfl]
  constructor
  · have next := LoopInvariant.consume [ev] invariant (by simp) queue rfl
      (.event invariant.traced invariant.queue handles)
    rwa [taken] at next
  -- The pointer goes on by the size of the event.
  · intro fuel
    have continues := invariant.continues_iff.mpr (List.cons_ne_nil ev rest)
    have processed := (invariant.processNext opts).trans done
    exact processEvents_of_handled continues processed (by dsimp only; omega) fuel

/-- The three situations that the loop goes through again and again. -/
inductive Churning (start : Program) (state : LoopState) (log : List LogEntry) : Prop
  /-- A read has brought two events, and the directory is not in the cache. -/
  | arrived {round : Nat}
      (invariant : LoopInvariant churnWorld start state log [movedIn round, movedAway round])
      (first : state.firstTry = true) (cache : state.program.cache = cacheWithout)
      (reads : state.program.inotifyReadCnt = round + 1)
  /-- The event that the directory was moved away is the last one. -/
  | last {round : Nat} {wd : Watch}
      (invariant : LoopInvariant churnWorld start state log [movedAway round])
      (first : state.firstTry = true) (cache : state.program.cache = cacheWith wd)
      (reads : state.program.inotifyReadCnt = round + 1)
  /-- The secondary read has brought the next two events. -/
  | waited {round : Nat} {wd : Watch}
      (invariant : LoopInvariant churnWorld start state log
        [movedAway round, movedIn (round + 1), movedAway (round + 1)])
      (second : state.firstTry = false) (cache : state.program.cache = cacheWith wd)
      (reads : state.program.inotifyReadCnt = round + 2)

/-- In each of these situations the loop goes on to the next one. -/
theorem Churning.step (opts : Options) {state : LoopState} {log : List LogEntry}
    (churning : Churning start state log) :
    ∃ entry next, Churning start next (log ++ [entry]) ∧
      ∀ fuel, processEvents opts churnWorld (fuel + 1) state =
        (entry :: (processEvents opts churnWorld fuel next).1,
          (processEvents opts churnWorld fuel next).2) := by
  cases churning with
  | @arrived round invariant first cache reads =>
    obtain ⟨next, ran⟩ := invariant.alone first (handleNextEvent_comesBack cache _)
    exact ⟨_, _, .last next rfl rfl reads, ran⟩
  | @last round wd invariant first cache reads =>
    have continues := invariant.continues_iff.mpr (by simp)
    have processed := invariant.processNext opts
    rw [first, List.head?_nil, handleNextEvent_hangs cache, ← first] at processed
    have ran := processEvents_of_hanging continues processed rfl
    have counted : LoopInvariant churnWorld start
        { state with program := state.program.counted } log [movedAway round] :=
      { invariant with
        traced := .hangs invariant.traced invariant.queue (movedAway_kind round) }
    -- The buffer has room for the next two events behind the one that hangs.
    have answer : churnWorld.read state.program.counted.inotifyReadCnt
        (inotifyReadBufLen - (movedAway round).size) =
          .events [movedIn (round + 1), movedAway (round + 1)] := by
      show churnWorld.read state.program.inotifyReadCnt (27200 - 20) = _
      rw [reads]
      rfl
    have next := counted.arrives churnWorld_sound first answer
    have left : state.numRead - state.evp = (movedAway round).size := invariant.left first
    refine ⟨_, _, .waited next rfl cache (congrArg (· + 1) reads), fun fuel => ?_⟩
    rw [ran, secondaryRead, left, Int.toNat_natCast, answer]
  | @waited round wd invariant second cache reads =>
    obtain ⟨next, ran⟩ := invariant.alone second (handleNextEvent_movesOut cache)
    exact ⟨_, _, .arrived next rfl rfl reads, ran⟩

/-- So the loop does not end, whatever the fuel is. -/
theorem Churning.endless (fuel : Nat) {state : LoopState} {log : List LogEntry}
    (churning : Churning start state log) :
    (processEvents opts churnWorld fuel state).2 = .outOfFuel := by
  -- By induction on the fuel, along states that churn.
  induction fuel generalizing state log with
  | zero => rfl
  | succ fuel ih =>
    obtain ⟨entry, next, churning, ran⟩ := churning.step opts
    rw [ran]
    exact ih churning

end Endless

/-- A call whose reads all bring events that end with a directory moved away never ends. -/
theorem processInotifyEvents_endless :
    churnWorld.Sound ∧ ∀ fuel,
      (processInotifyEvents ⟨false, false, 0⟩ churnWorld fuel churnProgram fun _ => 0).2 =
        .outOfFuel := by
  refine ⟨churnWorld_sound, fun fuel => ?_⟩
  have answer : churnWorld.read churnProgram.inotifyReadCnt (Options.count ⟨false, false, 0⟩) =
      .events [movedIn 0, movedAway 0] := rfl
  rw [processInotifyEvents_of_events _ answer]
  -- The first read leads into such a state.
  have invariant := loopInvariant_first churnWorld_sound (by decide) (fun _ => 0) answer
  exact Churning.endless fuel (.arrived invariant rfl rfl rfl)

end SysProg.Inotify
