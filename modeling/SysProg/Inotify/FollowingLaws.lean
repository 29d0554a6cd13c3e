import SysProg.Inotify.NewsLaws
import SysProg.Inotify.RootPathsLaws

/-! The cache shows the directory trees as they are, whenever the program has caught up. -/

namespace SysProg.Inotify.Following

/-- The watches of the kernel. -/
def State.now (state : State) : Watching :=
  ⟨state.tree, state.watches, state.issued⟩

/-- Every event has been handled. -/
def CaughtUp (state : State) : Prop :=
  match state.pc with
  | .idle => state.queue = []
  | _ => False

instance (state : State) : Decidable (CaughtUp state) := by
  unfold CaughtUp
  cases state.pc <;> infer_instance

/-- What the other process and the system are asked to do, and not to do. -/
def Admitted (state : State) : Action → Prop
  /- A directory is renamed only when all events before it have been handled. -/
  | .rename _ _ _ _ => CaughtUp state
  /- Between opening a directory and watching it, no other one takes its place. -/
  | .addWatch _ =>
    match state.pc with
    | .walking _ walk => ∀ dir ∈ walk.looked, ∀ found ∈ state.tree.lookup dir.path.val,
      found.node = dir.node
    | _ => True
  /- `nftw` does not fail. -/
  | .cutShort => False
  | _ => True

instance (state : State) (action : Action) : Decidable (Admitted state action) := by
  cases action with
  | addWatch wd =>
    unfold Admitted
    cases state.pc <;> infer_instance
  | _ => unfold Admitted; infer_instance

/-- Exactly the directories are watched and cached, each with its pathname. -/
structure Mirrors (state : State) : Prop where
  watched : ∀ dir ∈ state.tree.dirs, ∃ wd, state.watch dir.node = some wd
  cached : ∀ number path, Inotify.watched state.program.cache number = some path ↔
    ∃ dir ∈ state.tree.dirs, dir.path = path ∧
      ∃ wd, state.watch dir.node = some wd ∧ wd.val = number

/-- What has been visited in all, in the order of the visits. -/
def Walk.visits (walk : Walk) : List Visit :=
  walk.logs.reverse.flatMap Prod.snd

/-- A directory that the walk has not come to yet, but will. -/
def Walk.Covers (walk : Walk) (dir : Directory) : Prop :=
  dir ∈ walk.pending ∨ walk.looked = some dir ∨ dir.path.val ∈ walk.starts

/-- How far a walk below some pathnames has come. -/
structure Walks (starts : List (List UInt8)) (walk : Walk) : Prop where
  order : (walk.logs.map Prod.fst).reverse ++ walk.starts = starts
  begun : walk.logs = [] → walk.looked = none ∧ walk.opened = []
  answered : ∀ visit ∈ walk.visits, visit.addWatch ≠ .failed

/-- Where a walk for some task begins, and what is cached by then. -/
inductive Tasks (program : Program) : Task → WatchMap → List (List UInt8) → Prop where
  | event {wd : Descriptor} {name : DirName} {path : Pathname}
    (cached : watched program.cache wd.val = some path)
    (new : pathnameInCache program.cache (fullPathOf path.val name.val) = false) :
    Tasks program (.event (.create wd name)) (watched program.cache)
      [fullPathOf path.val name.val]
  | build : Tasks program .build (watched []) (program.rootDirPaths.filterMap id)

/-- What the cache will be when the program has gone on, and the events that it takes for this. -/
inductive Stands (program : Program) :
    Pc → List Notice → WatchMap → (Directory → Prop) → Prop where
  | idle : Stands program .idle [] (watched program.cache) fun _ => False
  /-- Both events of a rename are the next ones. -/
  | moved {one two : Descriptor} {oldPath newPath : Pathname} {oldName newName : DirName}
    {cookie : UInt32} (first : watched program.cache one.val = some oldPath)
    (second : watched program.cache two.val = some newPath) :
    Stands program .idle [.movedFrom one oldName cookie, .movedTo two newName cookie]
      (fun wd => (watched program.cache wd).map
        (renamed oldPath.val oldName.val newPath.val newName.val)) fun _ => False
  | walking {task : Task} {walk : Walk} {base : WatchMap} {starts : List (List UInt8)}
    (tasks : Tasks program task base starts) (walks : Walks starts walk) :
    Stands program (.walking task walk) [] (walk.visits.foldl WatchMap.visit base) walk.Covers

/-- What is true of every state that is reached. -/
structure Sound (opts : Options) (state : State) : Prop where
  plain : ∀ root ∈ state.tree.roots, ¬ EndsWithSlash root
  roots : state.program.rootDirPaths = state.tree.roots.map some
  /-- The cache has never been discarded. -/
  first : state.program.inotifyFd = 0
  distinct : (table state.program.cache).Distinct
  follows : (∃ exit, state.pc = .exited exit ∧ opts.checkCache = true) ∨
    ∃ front news map covered, state.queue = front ++ news ∧
      Stands state.program state.pc front map covered ∧ Follows state.now map news covered

variable {opts : Options} {state next : State} {news : List Notice} {map : WatchMap}
  {front : List Notice} {covered : Directory → Prop} {walk : Walk}

section World

/-- No event that waits for the end of a rename is about a new directory. -/
theorem Stands.getLast?_eq (stands : Stands state.program state.pc front map covered)
    {wd : Descriptor} {name : DirName}
    (last : (front ++ news).getLast? = some (.create wd name)) :
    news.getLast? = some (.create wd name) := by
  -- What stands in front of the news holds no event that a directory was made.
  rw [List.getLast?_append] at last
  cases end_ : news.getLast? with
  | some notice =>
    rw [end_] at last
    exact last
  | none =>
    rw [end_] at last
    generalize state.pc = pc at stands
    cases stands with
    | idle => exact nomatch last
    | moved first second => exact nomatch last
    | walking tasks walks => exact nomatch last

/-- Making a directory keeps the state sound. -/
theorem Sound.mkdir {node : Nat} {name : DirName} {merges : Bool} (sound : Sound opts state)
    (made : mkdirStep state node name merges = some next) : Sound opts next := by
  -- The new directory gets an event, unless the last event was the same one.
  simp only [mkdirStep, Option.bind_eq_bind, Option.bind_eq_some_iff] at made
  obtain ⟨above, there, tree, grown, made⟩ := made
  obtain ⟨mem, rfl⟩ := Tree.directory_eq_some_iff.mp there
  obtain ⟨new, grown⟩ := Tree.mkdir_eq_some grown
  have plain : ∀ root ∈ tree.roots, ¬ EndsWithSlash root := grown.roots ▸ sound.plain
  have roots : state.program.rootDirPaths = tree.roots.map some := grown.roots ▸ sound.roots
  split at made
  · obtain ⟨wd, found, merged⟩ := Option.bind_eq_some_iff.mp made
    split at merged
    -- The event that is not queued twice is still among the news, so it tells of this directory,
    -- too.
    next last =>
      obtain rfl := Option.some.inj merged
      refine ⟨plain, roots, sound.first, sound.distinct, ?_⟩
      rcases sound.follows with exited | ⟨front, news, map, covered, queue, stands, follows⟩
      · exact .inl exited
      · rw [queue] at last
        exact .inr ⟨front, news, map, covered, queue, stands,
          follows.mkdir_merged grown found (stands.getLast?_eq last)⟩
    · exact nomatch merged
  · obtain rfl := Option.some.inj made
    refine ⟨plain, roots, sound.first, sound.distinct, ?_⟩
    rcases sound.follows with exited | ⟨front, news, map, covered, queue, stands, follows⟩
    · exact .inl exited
    · refine .inr ⟨front, _, map, covered, ?_, stands, follows.mkdir grown⟩
      show state.queue ++ _ = _
      rw [queue, List.append_assoc]
      rfl

/-- Removing a directory keeps the state sound. -/
theorem Sound.rmdir {node : Nat} (sound : Sound opts state)
    (removed : rmdirStep state node = some next) : Sound opts next := by
  -- The removal is told to the watch of the directory itself, which is then gone.
  simp only [rmdirStep, Option.bind_eq_bind, Option.bind_eq_some_iff] at removed
  obtain ⟨gone, there, tree, shrunk, removed⟩ := removed
  obtain ⟨mem, rfl⟩ := Tree.directory_eq_some_iff.mp there
  have shrunk := Tree.rmdir_eq_some shrunk
  obtain rfl := Option.some.inj removed
  refine ⟨shrunk.roots ▸ sound.plain, shrunk.roots ▸ sound.roots, sound.first, sound.distinct, ?_⟩
  rcases sound.follows with exited | ⟨front, news, map, covered, queue, stands, follows⟩
  · exact .inl exited
  · refine .inr ⟨front, _, map, covered, ?_, stands, follows.rmdir shrunk⟩
    show state.queue ++ _ = _
    rw [queue, List.append_assoc]
    rfl

/-- Everything that is known of a state in which nothing is left to be done. -/
theorem Sound.settled (sound : Sound opts state) (caught : CaughtUp state) :
    state.pc = .idle ∧ state.queue = [] ∧
      Follows state.now (watched state.program.cache) [] fun _ => False := by
  -- Where all has been handled nothing stands in front of the news, and there are none.
  have stopped : state.pc = .idle := by
    unfold CaughtUp at caught
    split at caught
    next idle => exact idle
    · exact caught.elim
  have none_ : state.queue = [] := by
    unfold CaughtUp at caught
    rw [stopped] at caught
    exact caught
  refine ⟨stopped, none_, ?_⟩
  rcases sound.follows with ⟨exit, exited, _⟩ | ⟨front, news, map, covered, queue, stands, follows⟩
  · rw [stopped] at exited
    exact nomatch exited
  · rw [none_] at queue
    obtain ⟨rfl, rfl⟩ := List.append_eq_nil_iff.mp queue.symm
    rw [stopped] at stands
    cases stands with
    | idle => exact follows

/-- The name of a directory is the end of its pathname. -/
theorem join_nameIn {dir above : Directory} {name oldName : DirName}
    (path : dir.path.val = join above.path.val name.val) (named : nameIn dir above = some oldName) :
    dir.path.val = join above.path.val oldName.val := by
  -- Behind the pathname of the parent and a slash there is nothing but the name.
  have bytes : dir.path.val.drop (above.path.val.length + 1) = name.val := by
    rw [path, join, List.drop_append]
    simp
  rw [nameIn, bytes] at named
  split at named
  · rw [path, ← Option.some.inj named]
  · simp at named

/-- Renaming a directory keeps the state sound, if all events have been handled. -/
theorem Sound.rename {node target : Nat} {name : DirName} {cookie : UInt32}
    (sound : Sound opts state) (caught : CaughtUp state)
    (stepped : renameStep state node target name cookie = some next) : Sound opts next := by
  simp only [renameStep, Option.bind_eq_bind, Option.bind_eq_some_iff] at stepped
  obtain ⟨dir, there, above, there_, parent, ⟨number, nested, there__⟩, oldName, named, tree, moved,
    stepped⟩ := stepped
  obtain ⟨mem, rfl⟩ := Tree.directory_eq_some_iff.mp there
  obtain ⟨mem_, rfl⟩ := Tree.directory_eq_some_iff.mp there_
  obtain ⟨upper, rfl⟩ := Tree.directory_eq_some_iff.mp there__
  obtain ⟨renames, dirs⟩ := Tree.rename_eq_some moved
  obtain ⟨stopped, queue, follows⟩ := sound.settled caught
  obtain ⟨owner, owned, same, called, path⟩ := state.tree.parents dir mem parent.node nested
  obtain rfl := Tree.node_unique owned upper same
  have path := join_nameIn path named
  -- Both the old and the new parent are watched, and the program is told by both.
  obtain ⟨one, first⟩ := follows.complete upper
  obtain ⟨two, second⟩ := follows.complete mem_
  have found : state.watch owner.node = some one :=
    (lookup_eq_some_iff_of_nodup follows.once).mpr first
  have found_ : state.watch above.node = some two :=
    (lookup_eq_some_iff_of_nodup follows.once).mpr second
  obtain rfl := Option.some.inj stepped
  have renames_ := renames.roots_eq dirs
  refine ⟨renames_ ▸ sound.plain, renames_ ▸ sound.roots, sound.first, sound.distinct, .inr ?_⟩
  refine ⟨[.movedFrom one oldName cookie, .movedTo two name cookie], [], _, _, ?_, ?_,
    follows.rename renames dirs path⟩
  · show (state.queue ++ ((state.watch owner.node).map _).getD []) ++
      ((state.watch above.node).map _).getD [] = _
    rw [queue, found, found_]
    rfl
  · show Stands state.program state.pc _ _ _
    rw [stopped]
    exact .moved (follows.cached_of_mem upper first) (follows.cached_of_mem mem_ second)

end World

section Walking

/-- Whatever the walk does next, it stays a walk for the same task. -/
theorem Sound.going (sound : Sound opts state) {task : Task}
    (walking : state.pc = .walking task walk) :
    ∃ base starts map, Tasks state.program task base starts ∧ Walks starts walk ∧
      map = walk.visits.foldl WatchMap.visit base ∧
      Follows state.now map state.queue walk.Covers := by
  -- A program that walks has not exited, so it stands where the walk says.
  rcases sound.follows with ⟨exit, exited, _⟩ | ⟨front, news, map, covered, queue, stands, follows⟩
  · rw [walking] at exited
    exact nomatch exited
  · rw [walking] at stands
    cases stands with
    | walking tasks walks =>
      rw [List.nil_append] at queue
      exact ⟨_, _, _, tasks, walks, rfl, queue ▸ follows⟩

/-- The walk has gone on. -/
theorem Sound.of_walk (sound : Sound opts state) {task : Task} {base : WatchMap}
    {starts : List (List UInt8)} {later : Walk} {watches : List (Nat × Descriptor)}
    {issued : List Descriptor} (tasks : Tasks state.program task base starts)
    (walks : Walks starts later)
    (follows : Follows ⟨state.tree, watches, issued⟩ (later.visits.foldl WatchMap.visit base)
      state.queue later.Covers) :
    Sound opts { state with watches := watches, issued := issued, pc := .walking task later } :=
  -- Nothing is in front of the news while the program walks.
  ⟨sound.plain, sound.roots, sound.first, sound.distinct,
    .inr ⟨[], state.queue, _, _, rfl, .walking tasks walks, follows⟩⟩

/-- The pathname of a directory does not end with a slash. -/
theorem Sound.not_endsWithSlash (sound : Sound opts state) {dir : Directory}
    (mem : dir ∈ state.tree.dirs) : ¬ EndsWithSlash dir.path.val := by
  cases parent : dir.parent with
  | none => exact sound.plain _ (Tree.mem_roots.mpr ⟨dir, mem, parent, rfl⟩)
  | some node =>
    obtain ⟨above, _, _, name, path⟩ := state.tree.parents dir mem node parent
    intro ends
    -- The last byte is the last one of the name.
    have last : name.val.getLast? = some slash := by
      rw [EndsWithSlash, path, join, List.getLast?_append, List.getLast?_cons] at ends
      cases end_ : name.val.getLast? with
      | none => exact absurd (List.getLast?_eq_none_iff.mp end_) name.property.1
      | some byte =>
        rw [end_] at ends
        exact ends
    exact name.property.2.1 (List.mem_of_getLast? last)

/-- A walk begins at the next pathname. -/
theorem Sound.start (sound : Sound opts state) (stepped : startStep state = some next) :
    Sound opts next := by
  -- The walk opens the next of its pathnames, so what was covered by the start is covered by the
  -- look.
  rw [startStep] at stepped
  split at stepped
  next task walk walking =>
    obtain ⟨base, starts, map, tasks, walks, rfl, follows⟩ := sound.going walking
    split at stepped
    next over_ =>
      split at stepped
      next path later left =>
        obtain rfl := Option.some.inj stepped
        refine sound.of_walk tasks ⟨?_, nofun, ?_⟩ ?_
        · have order := walks.order
          rw [left] at order
          simpa using order
        · intro visit mem
          apply walks.answered visit
          simpa [Walk.visits] using mem
        -- The new log is empty, so no more visits have been made.
        · have same : Walk.visits ⟨later, (path, []) :: walk.logs, [], [],
              state.tree.lookup (nftwRoot path)⟩ = walk.visits := by
            simp [Walk.visits]
          rw [same]
          refine follows.mono fun dir mem _ covered => ?_
          obtain ⟨pending, looked⟩ := over_
          rcases covered with here | here | here
          · rw [pending] at here
            exact absurd here List.not_mem_nil
          · rw [looked] at here
            exact nomatch here
          · rw [left] at here
            rcases List.mem_cons.mp here with rfl | there
            · refine .inr (.inl (Tree.lookup_eq_some_iff.mpr ⟨mem, ?_⟩))
              exact (nftwRoot_of_not_endsWithSlash (sound.not_endsWithSlash mem)).symm
            · exact .inr (.inr there)
      · exact nomatch stepped
    · exact nomatch stepped
  · exact nomatch stepped

/-- `nftw` looks at an entry. -/
theorem Sound.look {dir : List UInt8} {name : DirName} (sound : Sound opts state)
    (stepped : lookStep state dir name = some next) : Sound opts next := by
  -- The entry that is looked at leaves the pending ones, and is the one that is looked at now.
  rw [lookStep] at stepped
  split at stepped
  next task walk walking =>
    obtain ⟨base, starts, map, tasks, walks, rfl, follows⟩ := sound.going walking
    split at stepped
    next able =>
      obtain rfl := Option.some.inj stepped
      refine sound.of_walk tasks ⟨walks.order, ?_, walks.answered⟩ (follows.mono ?_)
      · intro none_
        rw [(walks.begun none_).2] at able
        exact absurd able.2 List.not_mem_nil
      · intro other mem _ covered
        rcases covered with here | here | here
        · by_cases path : other.path.val = nftwChild dir name.val
          · exact .inr (.inl (Tree.lookup_eq_some_iff.mpr ⟨mem, path⟩))
          · exact .inl (List.mem_filter.mpr ⟨here, decide_eq_true path⟩)
        · rw [able.1] at here
          exact nomatch here
        · exact .inr (.inr here)
    · exact nomatch stepped
  · exact nomatch stepped

/-- `nftw` does not look at a directory that is not there any more. -/
theorem Sound.skip {node : Nat} (sound : Sound opts state)
    (stepped : skipStep state node = some next) : Sound opts next := by
  -- What is skipped is not there any more, so it does not have to be covered.
  rw [skipStep] at stepped
  split at stepped
  next task walk walking =>
    obtain ⟨base, starts, map, tasks, walks, rfl, follows⟩ := sound.going walking
    split at stepped
    next gone =>
      obtain rfl := Option.some.inj stepped
      refine sound.of_walk tasks ⟨walks.order, walks.begun, walks.answered⟩ (follows.mono ?_)
      intro other mem _ covered
      rcases covered with here | here | here
      · exact .inl (List.mem_filter.mpr ⟨here, decide_eq_true (gone other mem)⟩)
      · exact .inr (.inl here)
      · exact .inr (.inr here)
    · exact nomatch stepped
  · exact nomatch stepped

/-- A visit is the last one in a walk that has begun. -/
theorem Walk.visits_visit (walk : Walk) (begun : walk.logs ≠ []) (visit : Visit) :
    (walk.visit visit).visits = walk.visits ++ [visit] ∧
      ((walk.visit visit).logs.map Prod.fst) = walk.logs.map Prod.fst := by
  -- The visit goes to the log of the pathname where the walk is.
  obtain ⟨starts, logs, opened, pending, looked⟩ := walk
  cases logs with
  | nil => exact absurd rfl begun
  | cons log logs =>
    obtain ⟨path, visits⟩ := log
    simp [Walk.visit, Walk.visits]

/-- A visit changes nothing but what has been visited. -/
theorem Walk.visit_others (walk : Walk) (visit : Visit) :
    (walk.visit visit).starts = walk.starts ∧ (walk.visit visit).pending = walk.pending ∧
      (walk.visit visit).looked = walk.looked := by
  obtain ⟨starts, logs, opened, pending, looked⟩ := walk
  -- The visit is noted for the walk that goes on, if there is one.
  cases logs with
  | nil => exact ⟨rfl, rfl, rfl⟩
  | cons log logs => exact ⟨rfl, rfl, rfl⟩

/-- The walk that reads a directory, after a visit. -/
theorem Walks.read {starts : List (List UInt8)} (walks : Walks starts walk)
    {dir : Directory} (looked : walk.looked = some dir) (children : List Directory) (visit : Visit)
    (answered : visit.addWatch ≠ .failed) :
    let later := ({ walk with
      opened := dir.path.val :: walk.opened
      pending := walk.pending ++ children
      looked := none } : Walk).visit visit
    Walks starts later ∧ later.visits = walk.visits ++ [visit] ∧ ∀ other, later.Covers other ↔
      other ∈ walk.pending ∨ other ∈ children ∨ other.path.val ∈ walk.starts := by
  -- The logs grow by one visit, and the children of the directory are pending.
  intro later
  have begun : walk.logs ≠ [] := by
    intro none_
    rw [(walks.begun none_).1] at looked
    exact nomatch looked
  obtain ⟨visits, order⟩ := Walk.visits_visit { walk with
    opened := dir.path.val :: walk.opened
    pending := walk.pending ++ children
    looked := none } begun visit
  obtain ⟨starts_, pending, looked_⟩ := Walk.visit_others { walk with
    opened := dir.path.val :: walk.opened
    pending := walk.pending ++ children
    looked := none } visit
  refine ⟨⟨?_, ?_, ?_⟩, visits, fun other => ?_⟩
  · rw [order, starts_]
    exact walks.order
  · intro none_
    rw [none_] at order
    exact absurd (List.map_eq_nil_iff.mp order.symm) begun
  · intro given mem
    rw [visits] at mem
    rcases List.mem_append.mp mem with old | new
    · exact walks.answered given old
    · rw [List.mem_singleton.mp new]
      exact answered
  · rw [Walk.Covers, pending, looked_, starts_, List.mem_append]
    simp [or_assoc]

/-- A visit with a watch descriptor that is already cached changes nothing. -/
theorem visit_of_cached {wd : Descriptor} {path old : Pathname} (cached : map wd.val = some old) :
    WatchMap.visit map ⟨path, true, .watching wd.val⟩ = map := by
  show WatchMap.insertIfAbsent map wd.val path = map
  rw [WatchMap.insertIfAbsent, cached]
  rfl

/-- A visit with a new watch descriptor caches the pathname. -/
theorem visit_of_fresh {wd : Descriptor} {path : Pathname} (absent : map wd.val = none) :
    WatchMap.visit map ⟨path, true, .watching wd.val⟩ =
      Function.update map wd.val (some path) := by
  show WatchMap.insertIfAbsent map wd.val path = _
  rw [WatchMap.insertIfAbsent, absent]
  rfl

/-- The directory that the walk has come to is watched. -/
theorem Sound.addWatch {wd : Descriptor} (sound : Sound opts state)
    (admitted : Admitted state (.addWatch wd)) (stepped : addWatchStep state wd = some next) :
    Sound opts next := by
  rw [addWatchStep] at stepped
  split at stepped
  next task walk walking =>
    obtain ⟨base, starts, map, tasks, walks, shows_, follows⟩ := sound.going walking
    split at stepped
    next dir looked =>
      simp only at stepped
      split at stepped
      next gone =>
        -- The directory has been deleted meanwhile, and so nothing else is expected.
        obtain rfl := Option.some.inj stepped
        obtain ⟨walks_, visits, covers⟩ := walks.read looked (state.tree.children dir.node)
          ⟨dir.path, true, .enoent⟩ nofun
        refine sound.of_walk tasks walks_ ?_
        rw [visits, List.foldl_append, ← shows_]
        refine follows.mono fun other mem _ covered => (covers other).mpr ?_
        rcases covered with here | here | here
        · exact .inl here
        · rw [looked] at here
          obtain rfl := Option.some.inj here
          have lost : state.tree.lookup dir.path.val = some dir :=
            Tree.lookup_eq_some_iff.mpr ⟨mem, rfl⟩
          rw [gone] at lost
          exact nomatch lost
        · exact .inr (.inr here)
      next found there =>
        obtain ⟨mem, path⟩ := Tree.lookup_eq_some_iff.mp there
        have path : found.path = dir.path := Subtype.ext path
        have same : found.node = dir.node := by
          rw [Admitted, walking] at admitted
          exact admitted dir looked found there
        obtain ⟨walks_, visits, covers⟩ := walks.read looked (state.tree.children dir.node)
          ⟨dir.path, true, .watching wd.val⟩ nofun
        have stays : ∀ other ∈ state.tree.dirs, other ≠ found → walk.Covers other →
            other ∈ walk.pending ∨ other ∈ state.tree.children dir.node ∨
              other.path.val ∈ walk.starts := by
          intro other mem_ apart covered
          rcases covered with here | here | here
          · exact .inl here
          · rw [looked] at here
            obtain rfl := Option.some.inj here
            exact absurd (Tree.path_unique mem mem_ path).symm apart
          · exact .inr (.inr here)
        split at stepped
        next known watch =>
          split at stepped
          next here =>
            -- It has been watched before, and is cached.
            subst here
            obtain rfl := Option.some.inj stepped
            have watch := mem_of_lookup watch
            refine sound.of_walk tasks walks_ ?_
            rw [visits, List.foldl_append, ← shows_, List.foldl_cons, List.foldl_nil,
              visit_of_cached (follows.cached_of_mem mem watch)]
            refine follows.mono fun other mem_ misses covered => (covers other).mpr ?_
            refine stays other mem_ ?_ covered
            rintro rfl
            exact misses _ watch rfl
          · exact nomatch stepped
        next free =>
          split at stepped
          next fresh =>
            obtain rfl := Option.some.inj stepped
            have misses : state.now.Misses found.node := misses_of_lookup free
            have absent : map wd.val = none := by
              cases cached : map wd.val with
              | none => rfl
              | some path =>
                obtain ⟨old, twin, issued, _⟩ := follows.living _ _ cached
                exact absurd (Subtype.ext twin ▸ issued) fresh
            refine sound.of_walk tasks walks_ ?_
            rw [visits, List.foldl_append, ← shows_, List.foldl_cons, List.foldl_nil,
              visit_of_fresh absent]
            have watched_ := follows.watch mem misses fresh
              (fun other mem_ apart covered => (covers other).mpr (stays other mem_ apart covered))
              (fun other mem_ parent => (covers other).mpr
                (.inr (.inl (Tree.mem_children.mpr ⟨mem_, same ▸ parent⟩))))
            rwa [path] at watched_
          · exact nomatch stepped
    · exact nomatch stepped
  · exact nomatch stepped

end Walking

section Handling

/-- Nothing is zapped as long as everything that is watched stays cached. -/
theorem State.handled_eq {rest : List Notice} {outcome : Outcome}
    (kept : outcome.handling.reinitialized = false)
    (cached : ∀ watch ∈ state.watches,
      (findWatch outcome.program.cache watch.2.val.val).isSome) :
    state.handled rest outcome =
      { state with
        queue := rest.drop (if outcome.handling.partner.isSome then 1 else 0)
        program := outcome.program
        pc := .idle } := by
  -- No watch is zapped, since all of them are still in the cache.
  have none_ : (state.watches.filter fun watch =>
      (findWatch state.program.cache watch.2.val.val).isSome &&
        (findWatch outcome.program.cache watch.2.val.val).isNone) = [] := by
    apply List.filter_eq_nil_iff.mpr
    intro watch mem zapped
    have found := cached watch mem
    rw [Bool.and_eq_true, Option.isNone_iff_eq_none] at zapped
    rw [zapped.2] at found
    exact nomatch found
  rw [State.handled, kept, none_]
  simp

/-- An event has been handled, and the state is sound afterwards if the cache is. -/
theorem Sound.handled {rest : List Notice} {pair : Bool} {result : Except Exit Outcome}
    (sound : Sound opts state)
    (stepped : (match result with
      | .error exit => some { state with pc := .exited exit }
      | .ok outcome => some (state.handled rest outcome)) = some next)
    (handles : Handles opts state.program map pair result)
    (follows : Follows state.now map (rest.drop (if pair then 1 else 0)) fun _ => False) :
    Sound opts next := by
  -- An error is one of the exits that are allowed; otherwise the next state follows.
  cases result with
  | error exit =>
    obtain rfl := Option.some.inj stepped
    exact ⟨sound.plain, sound.roots, sound.first, sound.distinct, .inl ⟨exit, rfl, handles⟩⟩
  | ok outcome =>
    obtain rfl := Option.some.inj stepped
    obtain ⟨kept, rfl, distinct, rfl, roots, same⟩ := handles
    rw [State.handled_eq kept]
    · exact ⟨sound.plain, roots.trans sound.roots, same.trans sound.first, distinct,
        .inr ⟨[], _, _, _, rfl, .idle, follows⟩⟩
    · intro watch mem
      obtain ⟨dir, _, _, cached⟩ := follows.cached watch mem
      rw [isSome_findWatch_iff distinct, cached]
      exact nofun

/-- The full pathname of a directory that exists is not truncated. -/
theorem fullPathOf_of_dir {dir above : Directory} {name : DirName}
    (path : dir.path.val = join above.path.val name.val) :
    fullPathOf above.path.val name.val = dir.path.val := by
  -- The path of the directory fits, so nothing is cut off.
  have fits := dir.path.property
  rw [fullPathOf, ← path]
  apply List.take_of_length_le
  omega

/-- The next event is handled, or a walk begins. -/
theorem Sound.handle {checkExits : Bool} (sound : Sound opts state)
    (stepped : handleStep opts state checkExits = some next) : Sound opts next := by
  rw [handleStep] at stepped
  split at stepped
  next notice rest idle split_ =>
    rcases sound.follows with
      ⟨exit, exited, _⟩ | ⟨front, news, map, covered, queue, stands, follows⟩
    · rw [idle] at exited
      exact nomatch exited
    rw [idle] at stands
    rw [split_] at queue
    cases stands with
    | moved first second =>
      -- Both events of a rename are handled together.
      obtain ⟨rfl, rfl⟩ := List.cons.inj queue
      rw [newSubtree_other (has_rename _ _ _).2.1] at stepped
      exact sound.handled stepped (handles_rename sound.distinct first second) follows
    | idle =>
      rw [List.nil_append] at queue
      subst queue
      obtain ⟨single, _⟩ := follows.told notice List.mem_cons_self
      cases notice with
      | create wd name =>
        obtain ⟨path, cached⟩ : ∃ path, watched state.program.cache wd.val = some path :=
          Option.ne_none_iff_exists'.mp (follows.known _ List.mem_cons_self nofun)
        rw [newSubtree_create sound.distinct cached] at stepped
        cases known : pathnameInCache state.program.cache (fullPathOf path.val name.val) with
        | true =>
          rw [known] at stepped
          refine sound.handled stepped (handles_create_known sound.distinct cached known)
            (follows.tail (fun _ => id) ?_)
          rintro dir mem misses _ _ above ⟨⟩ there watch path_ free
          -- The event told about a directory that is cached already.
          have cached_ := follows.cached_of_mem there watch
          obtain rfl := Option.some.inj (cached.symm.trans cached_)
          rw [fullPathOf_of_dir path_, pathnameInCache_iff sound.distinct] at known
          obtain ⟨number, path, shown, same⟩ := known
          obtain ⟨old, rfl, _⟩ := follows.living number path shown
          exact free old (shown.trans (congrArg some (Subtype.ext same)))
        | false =>
          rw [known] at stepped
          obtain rfl := Option.some.inj stepped
          refine ⟨sound.plain, sound.roots, sound.first, sound.distinct, .inr ?_⟩
          refine ⟨[], rest, _, _, rfl,
            .walking (.event cached known) ⟨rfl, fun _ => ⟨rfl, rfl⟩, ?_⟩,
            follows.tail (fun _ => False.elim) ?_⟩
          · intro visit mem
            exact absurd mem List.not_mem_nil
          · rintro dir mem misses _ _ above ⟨⟩ there watch path_ _
            have cached_ := follows.cached_of_mem there watch
            obtain rfl := Option.some.inj (cached.symm.trans cached_)
            rw [fullPathOf_of_dir path_]
            exact .inr (.inr List.mem_cons_self)
      | deleteSelf wd =>
        obtain ⟨path, cached⟩ : ∃ path, watched state.program.cache wd.val = some path :=
          Option.ne_none_iff_exists'.mp (follows.known _ List.mem_cons_self nofun)
        have inner : some path.val ∉ state.program.rootDirPaths := by
          rw [sound.roots, List.mem_map]
          rintro ⟨root, mem, same⟩
          obtain ⟨descriptor, same_, _, ⟨node, watch⟩ | ⟨_, inner⟩⟩ := follows.living _ _ cached
          · rw [Subtype.ext same_] at watch
            exact follows.apart _ watch List.mem_cons_self
          · exact inner (Option.some.inj same ▸ mem)
        rw [newSubtree_other (has_deleteSelf _).2.1] at stepped
        exact sound.handled stepped (handles_deleteSelf sound.distinct cached inner)
          (follows.tail (fun _ => id) fun _ _ _ _ _ _ => nofun)
      | ignored wd =>
        rw [newSubtree_other (has_ignored _).2.1] at stepped
        exact sound.handled stepped (handles_ignored sound.distinct)
          (follows.tail (fun _ => id) fun _ _ _ _ _ _ => nofun)
      | movedFrom wd name cookie => exact single.elim
      | movedTo wd name cookie => exact single.elim
  · exact nomatch stepped

/-- A walk whose visits are all answered does not make the program exit. -/
theorem watchSubtree_of_answered (cache : Cache) {visits : List Visit}
    (answered : ∀ visit ∈ visits, visit.addWatch ≠ .failed) :
    ∃ after, watchSubtree cache visits = .ok after := by
  -- Each visit finds a file, a directory that is gone, or one that is watched.
  induction visits generalizing cache with
  | nil => exact ⟨cache, rfl⟩
  | cons visit visits ih =>
    have first := answered visit List.mem_cons_self
    have visited : ∃ after, traverseTree cache visit = .ok after := by
      rw [traverseTree]
      split
      · exact ⟨_, rfl⟩
      · split
        · exact ⟨_, rfl⟩
        next failed => exact absurd failed first
        · split
          · exact ⟨_, rfl⟩
          · exact ⟨_, rfl⟩
    obtain ⟨middle, visited⟩ := visited
    obtain ⟨after, later⟩ := ih middle
      fun visit mem => answered visit (List.mem_cons_of_mem _ mem)
    refine ⟨after, ?_⟩
    rw [watchSubtree, List.foldlM_cons, visited]
    exact later

/-- Each pathname of a walk is looked up with what has been visited below it. -/
theorem flatMap_lookup {logs : List (List UInt8 × List Visit)} (nodup : (logs.map Prod.fst).Nodup) :
    (logs.map Prod.fst).reverse.flatMap (fun path => (logs.lookup path).getD []) =
      logs.reverse.flatMap Prod.snd := by
  -- Every path has one log, so looking it up gives that one.
  rw [← List.map_reverse, List.flatMap_map]
  apply List.flatMap_congr
  intro log mem
  rw [(lookup_eq_some_iff_of_nodup nodup).mpr (List.mem_reverse.mp mem)]
  rfl

/-- The walks are over, and the program goes on. -/
theorem Sound.finish {checkExits : Bool} (sound : Sound opts state)
    (stepped : finishStep opts state checkExits = some next) : Sound opts next := by
  rw [finishStep] at stepped
  split at stepped
  next task walk walking =>
    obtain ⟨base, starts, map, tasks, walks, shows_, follows⟩ := sound.going walking
    split at stepped
    next over_ =>
      obtain ⟨none_, pending, looked⟩ := over_
      have order := walks.order
      rw [none_, List.append_nil] at order
      -- Nothing is covered by the walk any more.
      have follows : Follows state.now map state.queue fun _ => False := by
        refine follows.mono fun dir _ _ covered => ?_
        rw [Walk.Covers, none_, pending, looked] at covered
        rcases covered with here | here | here
        · exact absurd here List.not_mem_nil
        · exact nomatch here
        · exact absurd here List.not_mem_nil
      cases tasks with
      | @event wd name path cached new =>
        obtain ⟨⟨full, visits⟩, single⟩ : ∃ log, walk.logs = [log] := by
          have length := congrArg List.length order
          rw [List.length_reverse, List.length_map] at length
          exact List.length_eq_one_iff.mp length
        have same : full = fullPathOf path.val name.val := by
          simpa [single] using order
        have all : walk.visits = visits := by
          simp [Walk.visits, single]
        have answered := walks.answered
        rw [all] at answered shows_
        obtain ⟨after, visited⟩ := watchSubtree_of_answered state.program.cache answered
        have there : (state.world walk.logs checkExits).visits state.program.eventCnt
            (fullPathOf path.val name.val) = visits := by
          show ((walk.logs.lookup _).getD []) = _
          rw [single, ← same]
          simp
        rw [shows_, ← (watchSubtree_watched sound.distinct visited).2] at follows
        exact sound.handled stepped
          (handles_create_new sound.distinct cached new (there ▸ visited)) follows
      | build =>
        have answered := walks.answered
        obtain ⟨after, visited⟩ := watchSubtree_of_answered [] answered
        have starts : state.program.rootDirPaths.filterMap id = state.tree.roots := by
          rw [sound.roots]
          simp
        have all : state.roots.flatMap
            ((state.world walk.logs checkExits).visits state.program.eventCnt) = walk.visits := by
          rw [State.roots, ← order]
          apply flatMap_lookup
          rw [← List.nodup_reverse, order, starts]
          exact state.tree.roots_nodup
        rw [all, reinitialize, visited] at stepped
        obtain rfl := Option.some.inj stepped
        obtain ⟨distinct, same⟩ := watchSubtree_watched distinct_nil visited
        rw [shows_, ← same] at follows
        exact ⟨sound.plain, sound.roots, sound.first, distinct,
          .inr ⟨[], _, _, _, rfl, .idle, follows⟩⟩
    · exact nomatch stepped
  · exact nomatch stepped

end Handling

/-- The program starts in a sound state. -/
theorem sound_initial (opts : Options) {tree : Tree}
    (plain : ∀ root ∈ tree.roots, ¬ EndsWithSlash root) : Sound opts (initial tree) where
  plain := plain
  roots := rfl
  first := rfl
  distinct := distinct_nil
  follows := by
    -- Nothing is watched yet, and every directory is covered by the walks that are to begin.
    refine .inr ⟨[], [], _, _, rfl, .walking .build ⟨?_, fun _ => ⟨rfl, rfl⟩, ?_⟩, ?_⟩
    · show tree.roots = (tree.roots.map some).filterMap id
      simp
    · intro visit mem
      exact absurd mem List.not_mem_nil
    · exact
        { once := List.nodup_nil
          alone := List.nodup_nil
          issued := fun _ none_ => absurd none_ List.not_mem_nil
          told := fun _ none_ => absurd none_ List.not_mem_nil
          cached := fun _ none_ => absurd none_ List.not_mem_nil
          living := fun _ _ => nofun
          apart := fun _ none_ => absurd none_ List.not_mem_nil
          known := fun _ none_ => absurd none_ List.not_mem_nil
          ordered := List.Pairwise.nil
          found := by
            intro dir mem _
            cases parent : dir.parent with
            | none => exact .inl (.inr (.inr (Tree.mem_roots.mpr ⟨dir, mem, parent, rfl⟩)))
            | some node =>
              exact .inr ⟨node, rfl, .inl fun _ none_ => absurd none_ List.not_mem_nil⟩ }

/-- Whatever happens next, the state stays sound. -/
theorem Sound.step (state : State) (action : Action) (next : State) (sound : Sound opts state)
    (admitted : Admitted state action) (stepped : (following opts).step state action = some next) :
    Sound opts next := by
  -- One lemma for each of the actions, of which the last but one is ruled out.
  cases action with
  | mkdir node name merges => exact sound.mkdir stepped
  | rmdir node => exact sound.rmdir stepped
  | rename node target name cookie => exact sound.rename admitted stepped
  | handle checkExits => exact sound.handle stepped
  | start => exact sound.start stepped
  | look dir name => exact sound.look stepped
  | skip node => exact sound.skip stepped
  | addWatch wd => exact sound.addWatch admitted stepped
  | cutShort => exact admitted.elim
  | finish checkExits => exact sound.finish stepped

section Examples

/-- One root directory. -/
def oneRoot : Tree where
  dirs := [⟨0, none, ⟨[47, 100], by decide⟩⟩]
  made := 1
  recent := by simp
  nodes := by simp
  paths := by simp
  parents := by simp

/-- A name of a single byte. -/
def letter (byte : UInt8) (plain : byte ≠ slash ∧ byte ≠ 0) : DirName :=
  ⟨[byte], by simp, by simpa using plain.1.symm, by simpa using plain.2.symm, by simp [nameMax]⟩

def nameA : DirName := letter 97 (by decide)
def nameB : DirName := letter 98 (by decide)

/-- The descriptor with a small number. -/
def descriptor (number : Fin 8) : Descriptor :=
  ⟨⟨number.val, Int.natCast_nonneg _⟩, by
    have small := number.isLt
    show (number.val : Int) < 2 ^ 31
    omega⟩

/-- The cache is built, for the root directory only. -/
def building : List Action :=
  [.start, .addWatch (descriptor 1), .finish false]

/--
A directory is made with another one in it, which is removed before `nftw` looks at it.

When another one has been made instead, the first one is renamed, with that one in it.
-/
def changes : List Action :=
  building ++ [.mkdir 0 nameA false, .mkdir 1 nameB false, .handle false, .start,
    .addWatch (descriptor 2), .rmdir 2, .mkdir 1 nameB false, .look [47, 100, 47, 97] nameB,
    .addWatch (descriptor 3), .finish false, .handle false, .rename 1 0 nameB 7, .handle false]

/-- The program is started without options. -/
def noOptions : Options := ⟨false, false, 0⟩

/-- A directory is renamed before the program has handled the event that it was made. -/
def renamedEarly : List Action :=
  building ++ [.mkdir 0 nameA false, .rename 1 0 nameB 7, .handle false, .start, .finish false,
    .handle false]

/-- Another directory takes the place of the one that `nftw` has opened. -/
def replaced : List Action :=
  building ++ [.mkdir 0 nameA false, .handle false, .start, .rmdir 1, .mkdir 0 nameA false,
    .mkdir 2 nameB false, .addWatch (descriptor 2), .finish false, .handle false]

/-- `nftw` fails when it has come to the first directory. -/
def cut : List Action :=
  [.start, .cutShort, .finish false]

/-- None of the three conditions can be left out: each of these runs leaves something unwatched. -/
theorem not_mirrors :
    ∀ actions ∈ [renamedEarly, replaced, cut], ∃ state,
      (following noOptions).run (initial oneRoot) actions = some state ∧ CaughtUp state ∧
        ¬ Mirrors state := by
  -- In each of the runs some directory is there that has no watch.
  intro actions mem
  have all : ∀ actions ∈ [renamedEarly, replaced, cut],
      ((following noOptions).run (initial oneRoot) actions).any (fun state => decide
        (CaughtUp state ∧ ∃ dir ∈ state.tree.dirs, state.watch dir.node = none)) = true := by
    decide +kernel
  obtain ⟨state, ran, ended⟩ := (Option.any_eq_true _ _).mp (all actions mem)
  obtain ⟨caught, dir, there, absent⟩ := of_decide_eq_true ended
  refine ⟨state, ran, caught, fun mirrors => ?_⟩
  obtain ⟨wd, watch⟩ := mirrors.watched dir there
  rw [absent] at watch
  exact nomatch watch

end Examples

end SysProg.Inotify.Following
