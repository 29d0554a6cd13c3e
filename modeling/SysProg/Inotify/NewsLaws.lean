import SysProg.Inotify.NoticesLaws
import SysProg.Inotify.TreesLaws

/-! What the cache and the events that have not been handled yet say about the directories. -/

namespace SysProg.Inotify.Following

/-- The watch descriptor that an event is about. -/
def Notice.wd : Notice → Descriptor
  | .create wd _ => wd
  | .deleteSelf wd => wd
  | .ignored wd => wd
  | .movedFrom wd _ _ => wd
  | .movedTo wd _ _ => wd

/-- An event that has nothing to do with a rename. -/
def Notice.Single : Notice → Prop
  | .create _ _ => True
  | .deleteSelf _ => True
  | .ignored _ => True
  | .movedFrom _ _ _ => False
  | .movedTo _ _ _ => False

/-- The watches of the kernel on the directories of some trees. -/
structure Watching where
  tree : Tree
  watches : List (Nat × Descriptor)
  issued : List Descriptor

/-- A directory is not watched. -/
def Watching.Misses (now : Watching) (node : Nat) : Prop :=
  ∀ watch ∈ now.watches, watch.1 ≠ node

/--
An event tells the program about a directory, at a time when its pathname is not cached.

All watches that are cached with this pathname have been deleted by then.
-/
structure Told (now : Watching) (map : WatchMap) (news : List Notice) (dir : Directory)
    (node : Nat) : Prop where
  told : ∃ wd name above front back, (node, wd) ∈ now.watches ∧ above ∈ now.tree.dirs ∧
    above.node = node ∧ dir.path.val = join above.path.val name.val ∧
    news = front ++ .create wd name :: back ∧
    ∀ old : Descriptor, map old.val = some dir.path → .deleteSelf old ∈ front

/-- What is true of the watches, of the cached pathnames, and of the events in the queue. -/
structure Follows (now : Watching) (map : WatchMap) (news : List Notice)
    (covered : Directory → Prop) : Prop where
  /-- No directory is watched twice, and no descriptor is used twice. -/
  once : (now.watches.map Prod.fst).Nodup
  alone : (now.watches.map Prod.snd).Nodup
  issued : ∀ watch ∈ now.watches, watch.2 ∈ now.issued
  told : ∀ notice ∈ news, notice.Single ∧ notice.wd ∈ now.issued
  /-- A watched directory is cached with its pathname. -/
  cached : ∀ watch ∈ now.watches, ∃ dir ∈ now.tree.dirs,
    dir.node = watch.1 ∧ map watch.2.val = some dir.path
  /-- What is cached is watched, or else the program will be told that it has been deleted. -/
  living : ∀ wd path, map wd = some path → ∃ descriptor : Descriptor, descriptor.val = wd ∧
    descriptor ∈ now.issued ∧ ((∃ node, (node, descriptor) ∈ now.watches) ∨
      .deleteSelf descriptor ∈ news ∧ path.val ∉ now.tree.roots)
  apart : ∀ watch ∈ now.watches, .deleteSelf watch.2 ∉ news
  /-- Every event but the last one is about a descriptor that is cached when it is handled. -/
  known : ∀ notice ∈ news, notice ≠ .ignored notice.wd → map notice.wd.val ≠ none
  ordered : news.Pairwise fun first second =>
    first = .deleteSelf second.wd → second = .ignored second.wd
  /-- What is not watched will be found by the walk, or below another directory, or by an event. -/
  found : ∀ dir ∈ now.tree.dirs, now.Misses dir.node → covered dir ∨
    ∃ node, dir.parent = some node ∧ (now.Misses node ∨ Told now map news dir node)

variable {now : Watching} {map : WatchMap} {news rest : List Notice} {covered : Directory → Prop}
  {dir above new gone : Directory} {node : Nat} {wd : Descriptor} {name : DirName} {next : Tree}

namespace Follows

/-- The directory that is watched under a descriptor is cached. -/
theorem cached_of_mem (follows : Follows now map news covered) (mem : dir ∈ now.tree.dirs)
    (watch : (dir.node, wd) ∈ now.watches) : map wd.val = some dir.path := by
  obtain ⟨other, there, same, cached⟩ := follows.cached _ watch
  obtain rfl := Tree.node_unique there mem same
  exact cached

/-- More may be covered by the walk. -/
theorem mono (follows : Follows now map news covered) {more : Directory → Prop}
    (covers : ∀ dir ∈ now.tree.dirs, now.Misses dir.node → covered dir → more dir) :
    Follows now map news more where
  once := follows.once
  alone := follows.alone
  issued := follows.issued
  told := follows.told
  cached := follows.cached
  living := follows.living
  apart := follows.apart
  known := follows.known
  ordered := follows.ordered
  -- Only what is covered may become more.
  found := by
    intro dir mem misses
    rcases follows.found dir mem misses with here | later
    · exact .inl (covers dir mem misses here)
    · exact .inr later

/-- When everything has been handled, every directory is watched. -/
theorem complete (follows : Follows now map [] fun _ => False) (mem : dir ∈ now.tree.dirs) :
    ∃ wd, (dir.node, wd) ∈ now.watches := by
  -- The induction goes up the tree, where pathnames get shorter.
  induction size : dir.path.val.length using Nat.strong_induction_on generalizing dir with
  | _ size_ ih =>
    by_contra unwatched
    have misses : now.Misses dir.node := by
      intro watch watch_ same
      exact unwatched ⟨watch.2, same ▸ watch_⟩
    obtain ⟨⟨⟩⟩ | ⟨node, parent, alone_ | told⟩ := follows.found dir mem misses
    · obtain ⟨above, there, same, name, path⟩ := now.tree.parents dir mem node parent
      have shorter := length_lt_join above.path.val name.val
      rw [← path, size] at shorter
      obtain ⟨wd, watch⟩ := ih _ shorter there rfl
      exact alone_ _ watch same
    · obtain ⟨_, _, _, front, back, _, _, _, _, none_, _⟩ := told
      exact absurd none_ (by simp)

/-- The pathname that is cached for a descriptor is exactly that of the directory it is for. -/
theorem mirrors (follows : Follows now map [] fun _ => False) (number : Watch) (path : Pathname) :
    map number = some path ↔ ∃ dir ∈ now.tree.dirs, dir.path = path ∧
      ∃ wd : Descriptor, wd.val = number ∧ (dir.node, wd) ∈ now.watches := by
  -- With nothing to be told and nothing to be visited, only watched directories are cached.
  constructor
  · intro cached
    obtain ⟨wd, same, _, ⟨node, watch⟩ | ⟨deleted, _⟩⟩ := follows.living _ _ cached
    · obtain ⟨dir, mem, node_, cached_⟩ := follows.cached _ watch
      rw [same, cached] at cached_
      exact ⟨dir, mem, (Option.some.inj cached_).symm, wd, same, node_ ▸ watch⟩
    · exact absurd deleted List.not_mem_nil
  · rintro ⟨dir, mem, rfl, wd, rfl, watch⟩
    exact follows.cached_of_mem mem watch

end Follows

section World

/-- The events that a new directory causes, if its parent is watched. -/
def createNews (now : Watching) (node : Nat) (name : DirName) : List Notice :=
  ((now.watches.lookup node).map fun wd => [Notice.create wd name]).getD []

/-- Where no key occurs twice, looking one up finds the value that goes with it. -/
theorem lookup_eq_some_iff_of_nodup {κ ν : Type} [BEq κ] [LawfulBEq κ] {items : List (κ × ν)}
    (nodup : (items.map Prod.fst).Nodup) {key : κ} {value : ν} :
    items.lookup key = some value ↔ (key, value) ∈ items := by
  rw [List.lookup_eq_some_iff]
  -- The first pair with the key is the only one.
  constructor
  · rintro ⟨front, back, rfl, _⟩
    exact List.mem_append_right _ List.mem_cons_self
  · intro mem
    obtain ⟨front, back, rfl⟩ := List.append_of_mem mem
    refine ⟨front, back, rfl, ?_⟩
    rw [List.map_append, List.map_cons, List.nodup_middle, List.nodup_cons] at nodup
    intro item there
    rw [bne_iff_ne]
    intro same
    exact nodup.1 (List.mem_append_left _ (List.mem_map.mpr ⟨item, there, same.symm⟩))

/-- A watch that is looked up is there. -/
theorem mem_of_lookup {watches : List (Nat × Descriptor)}
    (found : watches.lookup node = some wd) : (node, wd) ∈ watches := by
  -- What is looked up stands somewhere in the list.
  rw [List.lookup_eq_some_iff] at found
  obtain ⟨front, back, split, _⟩ := found
  rw [split]
  exact List.mem_append_right _ List.mem_cons_self

/-- What is not found when it is looked up is not watched. -/
theorem misses_of_lookup (absent : now.watches.lookup node = none) : now.Misses node := by
  -- A watch of the directory would have been found.
  intro watch mem same
  rw [List.lookup_eq_none_iff] at absent
  have other := absent _ mem
  rw [same] at other
  simp at other

/-- What an event tells about a directory stays true when others are made. -/
theorem Told.made (told : Told now map news dir node)
    (made : Tree.Made now.tree above name new next) (more : List Notice) :
    Told { now with tree := next } map (news ++ more) dir node := by
  obtain ⟨wd, name, above, front, back, watch, there, same, path, rfl, gone⟩ := told
  have stays : above ∈ next.dirs := made.dirs ▸ List.mem_append_left _ there
  exact ⟨wd, name, above, front, back ++ more, watch, stays, same, path, by simp, gone⟩

/-- A new directory is found by an event of its parent, or below a parent that is not watched. -/
theorem Follows.made_of_found (follows : Follows now map news covered)
    (made : Tree.Made now.tree above name new next) (more : List Notice)
    (told : ∀ notice ∈ more, notice.Single ∧ notice.wd ∈ now.issued)
    (created : ∀ notice ∈ more, ∃ name, notice = .create notice.wd name ∧
      ∃ node, (node, notice.wd) ∈ now.watches)
    (found : now.Misses above.node ∨ Told { now with tree := next } map (news ++ more) new
      above.node) :
    Follows { now with tree := next } map (news ++ more) covered where
  once := follows.once
  alone := follows.alone
  issued := follows.issued
  -- The old news are as before, and the new ones tell of creations in watched directories.
  told := by
    intro notice mem
    rcases List.mem_append.mp mem with old | new
    · exact follows.told notice old
    · exact told notice new
  cached := by
    intro watch mem
    obtain ⟨dir, there, same⟩ := follows.cached watch mem
    exact ⟨dir, made.dirs ▸ List.mem_append_left _ there, same⟩
  living := by
    intro wd path cached
    obtain ⟨descriptor, same, known, watched_ | ⟨deleted, inner⟩⟩ := follows.living wd path cached
    · exact ⟨descriptor, same, known, .inl watched_⟩
    · refine ⟨descriptor, same, known, .inr ⟨List.mem_append_left _ deleted, ?_⟩⟩
      show path.val ∉ next.roots
      rwa [made.roots]
  apart := by
    intro watch mem deleted
    rcases List.mem_append.mp deleted with old | new
    · exact follows.apart watch mem old
    · obtain ⟨name, same, _⟩ := created _ new
      exact nomatch same
  known := by
    intro notice mem other
    rcases List.mem_append.mp mem with old | new
    · exact follows.known notice old other
    · obtain ⟨_, _, node, watch⟩ := created _ new
      obtain ⟨dir, _, _, cached⟩ := follows.cached _ watch
      rw [cached]
      exact nofun
  -- A creation deletes nothing, so it may stand anywhere behind a deletion.
  ordered := by
    refine List.pairwise_append.mpr ⟨follows.ordered, ?_, ?_⟩
    · apply List.pairwise_of_forall_mem_list
      intro first mem second _ same
      obtain ⟨name, create, _⟩ := created _ mem
      exact nomatch same.symm.trans create
    · intro first old second new same
      obtain ⟨name, _, node, watch⟩ := created _ new
      exact absurd (same ▸ old) (follows.apart _ watch)
  -- The new directory is the only one of which something has to be shown.
  found := by
    intro dir mem misses
    rw [made.dirs] at mem
    rcases List.mem_append.mp mem with there | here
    · rcases follows.found dir there misses with covered | ⟨node, parent, alone | told⟩
      · exact .inl covered
      · exact .inr ⟨node, parent, .inl alone⟩
      · exact .inr ⟨node, parent, .inr (told.made made more)⟩
    · obtain rfl := List.mem_singleton.mp here
      exact .inr ⟨above.node, made.parent, found⟩

/-- The pathname of a new directory is cached only for a directory that has been deleted. -/
theorem Follows.deleted_of_made (follows : Follows now map news covered)
    (made : Tree.Made now.tree above name new next) (cached : map wd.val = some new.path) :
    .deleteSelf wd ∈ news := by
  -- The path is new to the tree, so a watch cached with it has lost its directory.
  obtain ⟨descriptor, same, _, ⟨node, watch⟩ | ⟨deleted, _⟩⟩ := follows.living _ _ cached
  · obtain rfl : descriptor = wd := Subtype.ext same
    obtain ⟨dir, there, _, cached_⟩ := follows.cached _ watch
    exact absurd (Option.some.inj (cached_.symm.trans cached)) (made.fresh dir there).2
  · obtain rfl : descriptor = wd := Subtype.ext same
    exact deleted

/-- The program is told about a new directory, if its parent is watched. -/
theorem Follows.mkdir (follows : Follows now map news covered)
    (made : Tree.Made now.tree above name new next) :
    Follows { now with tree := next } map (news ++ createNews now above.node name) covered := by
  rw [createNews]
  -- Nothing is told of a directory that is not watched.
  cases found : now.watches.lookup above.node with
  | none =>
    refine follows.made_of_found made _ ?_ ?_ (.inl (misses_of_lookup found))
    · exact fun _ mem => absurd mem List.not_mem_nil
    · exact fun _ mem => absurd mem List.not_mem_nil
  | some wd =>
    have watch := mem_of_lookup found
    -- The kernel tells of the creation, and the directory will be visited for that.
    have stays : above ∈ next.dirs := made.dirs ▸ List.mem_append_left _ made.target
    refine follows.made_of_found made _ ?_ ?_ (.inr ⟨wd, name, above, news, [], watch, stays, rfl,
      made.path, rfl, ?_⟩)
    · intro notice mem
      obtain rfl := List.mem_singleton.mp mem
      exact ⟨trivial, follows.issued _ watch⟩
    · intro notice mem
      obtain rfl := List.mem_singleton.mp mem
      exact ⟨name, rfl, above.node, watch⟩
    · intro old cached
      exact follows.deleted_of_made made cached

/-- The last event in the queue tells about a new directory of the same name, too. -/
theorem Follows.mkdir_merged (follows : Follows now map news covered)
    (made : Tree.Made now.tree above name new next)
    (found : now.watches.lookup above.node = some wd)
    (last : news.getLast? = some (.create wd name)) :
    Follows { now with tree := next } map news covered := by
  -- The same creation is the last of the news, so the kernel does not tell it twice.
  have watch := mem_of_lookup found
  obtain ⟨front, rfl⟩ := List.getLast?_eq_some_iff.mp last
  have none_ : ∀ notice ∈ ([] : List Notice), False := fun _ mem => absurd mem List.not_mem_nil
  have merged := follows.made_of_found made [] (fun _ mem => (none_ _ mem).elim)
    (fun _ mem => (none_ _ mem).elim) (.inr ⟨wd, name, above, front, [], watch,
      made.dirs ▸ List.mem_append_left _ made.target, rfl, made.path, by simp, ?_⟩)
  · rwa [List.append_nil] at merged
  · intro old cached
    rcases List.mem_append.mp (follows.deleted_of_made made cached) with deleted | create
    · exact deleted
    · exact nomatch List.mem_singleton.mp create

/-- The events that are caused by the removal of a directory, if it is watched. -/
def removeNews (now : Watching) (node : Nat) : List Notice :=
  ((now.watches.lookup node).map fun wd => [Notice.deleteSelf wd, .ignored wd]).getD []

/-- The watches that are left when a directory is removed. -/
def Watching.removed (now : Watching) (gone : Directory) (next : Tree) : Watching :=
  { now with tree := next, watches := now.watches.filter fun watch => watch.1 ≠ gone.node }

/-- What is not watched any more was not watched, or is the directory that is gone. -/
theorem misses_of_removed (misses : (now.removed gone next).Misses node)
    (kept : node ≠ gone.node) : now.Misses node := by
  intro watch mem same
  exact misses watch (List.mem_filter.mpr ⟨mem, decide_eq_true (same ▸ kept)⟩) same

/-- What an event tells about a directory stays true when others are removed. -/
theorem Told.removed (told : Told now map news dir node)
    (removed : Tree.Removed now.tree gone next) (kept : node ≠ gone.node) (more : List Notice) :
    Told (now.removed gone next) map (news ++ more) dir node := by
  obtain ⟨wd, name, above, front, back, watch, there, rfl, path, rfl, deleted⟩ := told
  -- The directory that the news name is another one, so it and its watch stay.
  have other : above ≠ gone := fun same => kept (same ▸ rfl)
  have stays : above ∈ next.dirs :=
    removed.dirs ▸ List.mem_filter.mpr ⟨there, decide_eq_true other⟩
  have watches : (above.node, wd) ∈ (now.removed gone next).watches :=
    List.mem_filter.mpr ⟨watch, decide_eq_true kept⟩
  exact ⟨wd, name, above, front, back ++ more, watches, stays, rfl, path, by simp, deleted⟩

/-- The program is told about a directory that is removed, if it is watched. -/
theorem Follows.rmdir (follows : Follows now map news covered)
    (removed : Tree.Removed now.tree gone next) :
    Follows (now.removed gone next) map (news ++ removeNews now gone.node) covered := by
  -- The events are about the watch of the directory that is gone, if there is one.
  have about : ∀ notice ∈ removeNews now gone.node, ∃ wd, (gone.node, wd) ∈ now.watches ∧
      (notice = .deleteSelf wd ∨ notice = .ignored wd) := by
    intro notice mem
    rw [removeNews] at mem
    cases found : now.watches.lookup gone.node with
    | none => simp [found] at mem
    | some wd =>
      rw [found] at mem
      exact ⟨wd, mem_of_lookup found, by simpa using mem⟩
  have deleted : ∀ wd, (gone.node, wd) ∈ now.watches →
      .deleteSelf wd ∈ removeNews now gone.node := by
    intro wd watch
    rw [removeNews]
    rw [(lookup_eq_some_iff_of_nodup follows.once).mpr watch]
    exact List.mem_cons_self
  have last : (removeNews now gone.node).Pairwise fun first second =>
      first = .deleteSelf second.wd → second = .ignored second.wd := by
    rw [removeNews]
    cases now.watches.lookup gone.node with
    | none => exact List.Pairwise.nil
    | some wd => simp [Notice.wd]
  exact
    { once := follows.once.sublist (List.filter_sublist.map _)
      alone := follows.alone.sublist (List.filter_sublist.map _)
      issued := fun watch mem => follows.issued watch (List.mem_of_mem_filter mem)
      told := by
        intro notice mem
        rcases List.mem_append.mp mem with old | new
        · exact follows.told notice old
        · obtain ⟨wd, watch, rfl | rfl⟩ := about notice new
          · exact ⟨trivial, follows.issued _ watch⟩
          · exact ⟨trivial, follows.issued _ watch⟩
      cached := by
        intro watch mem
        obtain ⟨there, kept⟩ := List.mem_filter.mp mem
        obtain ⟨dir, stays, same, cached⟩ := follows.cached watch there
        have other : dir ≠ gone := by
          rintro rfl
          exact of_decide_eq_true kept same.symm
        exact ⟨dir, removed.dirs ▸ List.mem_filter.mpr ⟨stays, decide_eq_true other⟩, same, cached⟩
      living := by
        intro number path cached
        obtain ⟨wd, same, known, ⟨node, watch⟩ | ⟨old, inner⟩⟩ := follows.living number path cached
        · by_cases here : node = gone.node
          · subst here
            refine ⟨wd, same, known, .inr ⟨List.mem_append_right _ (deleted wd watch), ?_⟩⟩
            -- The directory that is gone is no root directory.
            show path.val ∉ next.roots
            rw [removed.roots, Tree.mem_roots]
            rintro ⟨dir, there, top, path_⟩
            have cached_ := follows.cached_of_mem removed.source watch
            rw [same, cached] at cached_
            obtain rfl := Tree.path_unique there removed.source
              (Subtype.ext (path_.trans (congrArg Subtype.val (Option.some.inj cached_))))
            exact removed.parent top
          · exact ⟨wd, same, known, .inl ⟨node, List.mem_filter.mpr ⟨watch, decide_eq_true here⟩⟩⟩
        · refine ⟨wd, same, known, .inr ⟨List.mem_append_left _ old, ?_⟩⟩
          show path.val ∉ next.roots
          rwa [removed.roots]
      apart := by
        intro watch mem mentioned
        obtain ⟨there, kept⟩ := List.mem_filter.mp mem
        rcases List.mem_append.mp mentioned with old | new
        · exact follows.apart watch there old
        · obtain ⟨wd, watch_, same | same⟩ := about _ new
          · have twin := List.inj_on_of_nodup_map follows.alone there watch_
              (Notice.deleteSelf.inj same)
            exact of_decide_eq_true kept (congrArg Prod.fst twin)
          · exact nomatch same
      known := by
        intro notice mem other
        rcases List.mem_append.mp mem with old | new
        · exact follows.known notice old other
        · obtain ⟨wd, watch, rfl | rfl⟩ := about notice new
          · obtain ⟨dir, _, _, cached⟩ := follows.cached _ watch
            show map wd.val ≠ none
            rw [cached]
            exact nofun
          · exact absurd rfl other
      ordered := by
        refine List.pairwise_append.mpr ⟨follows.ordered, last, ?_⟩
        intro first old second new same
        obtain ⟨wd, watch, here⟩ := about second new
        have wd_ : second.wd = wd := by
          rcases here with rfl | rfl
          · rfl
          · rfl
        rw [wd_] at same
        exact absurd (same ▸ old) (follows.apart _ watch)
      found := by
        intro dir mem misses
        rw [Watching.removed] at mem
        obtain ⟨there, kept⟩ := List.mem_filter.mp (removed.dirs ▸ mem)
        have other : dir.node ≠ gone.node := by
          intro same
          exact of_decide_eq_true kept (Tree.node_unique there removed.source same)
        rcases follows.found dir there (misses_of_removed misses other) with
          here | ⟨node, parent, alone | told⟩
        · exact .inl here
        · exact .inr ⟨node, parent, .inl fun watch mem => alone watch (List.mem_of_mem_filter mem)⟩
        · -- The directory that is gone has been empty.
          have kept_ : node ≠ gone.node := by
            rintro rfl
            exact removed.empty dir there parent
          exact .inr ⟨node, parent, .inr (told.removed removed kept_ _)⟩ }

end World

section Handling

/-- What is cached when an event has been handled, without a walk. -/
def heard (map : WatchMap) : Notice → WatchMap
  | .deleteSelf wd => Function.update map wd.val none
  | _ => map

/-- What is still cached has been cached, and has not been deleted. -/
theorem heard_eq_some {notice : Notice} {number : Watch} {path : Pathname} :
    heard map notice number = some path ↔
      map number = some path ∧ ∀ wd : Descriptor, wd.val = number → notice ≠ .deleteSelf wd := by
  -- Only the deletion of a directory takes a watch out of the map.
  cases notice with
  | deleteSelf wd =>
    rw [heard]
    by_cases same : number = wd.val
    · rw [same, Function.update_self]
      exact ⟨nofun, fun ⟨_, kept⟩ => absurd rfl (kept wd rfl)⟩
    · rw [Function.update_of_ne same]
      refine ⟨fun cached => ⟨cached, fun other wd_ deleted => ?_⟩, And.left⟩
      obtain rfl := Notice.deleteSelf.inj deleted
      exact same wd_.symm
  | _ => exact ⟨fun cached => ⟨cached, fun _ _ => nofun⟩, And.left⟩

/-- The next event has been handled, and what it tells about is covered now. -/
theorem Follows.tail {notice : Notice} (follows : Follows now map (notice :: rest) covered)
    {more : Directory → Prop} (covers : ∀ dir, covered dir → more dir)
    (walks : ∀ dir ∈ now.tree.dirs, now.Misses dir.node → ∀ wd name above,
      notice = .create wd name → above ∈ now.tree.dirs → (above.node, wd) ∈ now.watches →
        dir.path.val = join above.path.val name.val →
          (∀ old : Descriptor, map old.val ≠ some dir.path) → more dir) :
    Follows now (heard map notice) rest more where
  once := follows.once
  alone := follows.alone
  issued := follows.issued
  told := fun notice mem => follows.told notice (List.mem_cons_of_mem _ mem)
  cached := by
    intro watch mem
    obtain ⟨dir, there, same, cached⟩ := follows.cached watch mem
    refine ⟨dir, there, same, heard_eq_some.mpr ⟨cached, fun wd wd_ deleted => ?_⟩⟩
    obtain rfl := Subtype.ext wd_
    exact follows.apart watch mem (deleted ▸ List.mem_cons_self)
  living := by
    intro number path cached
    obtain ⟨cached, kept⟩ := heard_eq_some.mp cached
    obtain ⟨wd, same, known, watched_ | ⟨deleted, inner⟩⟩ := follows.living number path cached
    · exact ⟨wd, same, known, .inl watched_⟩
    · rcases List.mem_cons.mp deleted with here | later
      · exact absurd here.symm (kept wd same)
      · exact ⟨wd, same, known, .inr ⟨later, inner⟩⟩
  apart := fun watch mem deleted => follows.apart watch mem (List.mem_cons_of_mem _ deleted)
  known := by
    intro later mem other
    obtain ⟨path, cached⟩ := Option.ne_none_iff_exists'.mp
      (follows.known later (List.mem_cons_of_mem _ mem) other)
    rw [heard_eq_some.mpr ⟨cached, fun wd wd_ deleted => ?_⟩]
    · exact nofun
    · obtain rfl := Subtype.ext wd_
      exact other (List.rel_of_pairwise_cons follows.ordered mem deleted)
  ordered := follows.ordered.of_cons
  found := by
    intro dir mem misses
    rcases follows.found dir mem misses with here | ⟨node, parent, alone | told⟩
    · exact .inl (covers dir here)
    · exact .inr ⟨node, parent, .inl alone⟩
    · obtain ⟨wd, name, above, front, back, watch, there, rfl, path, split, deleted⟩ := told
      cases front with
      | nil =>
        -- This is the event itself.
        rw [List.nil_append, List.cons.injEq] at split
        have free : ∀ old : Descriptor, map old.val ≠ some dir.path := fun old cached =>
          absurd (deleted old cached) List.not_mem_nil
        exact .inl (walks dir mem misses wd name above split.1 there watch path free)
      | cons first front =>
        rw [List.cons_append, List.cons.injEq] at split
        refine .inr ⟨above.node, parent, .inr ⟨wd, name, above, front, back, watch, there, rfl,
          path, split.2, fun old cached => ?_⟩⟩
        obtain ⟨cached, kept⟩ := heard_eq_some.mp cached
        rcases List.mem_cons.mp (deleted old cached) with here | later
        · exact absurd (split.1.trans here.symm) (kept old rfl)
        · exact later

end Handling

section Walking

/-- A directory that the walk has come to is watched, and what is in it is covered now. -/
theorem Follows.watch (follows : Follows now map news covered) (mem : dir ∈ now.tree.dirs)
    (misses : now.Misses dir.node) (fresh : wd ∉ now.issued) {more : Directory → Prop}
    (covers : ∀ other ∈ now.tree.dirs, other ≠ dir → covered other → more other)
    (children : ∀ other ∈ now.tree.dirs, other.parent = some dir.node → more other) :
    Follows { now with watches := now.watches ++ [(dir.node, wd)], issued := wd :: now.issued }
      (Function.update map wd.val (some dir.path)) news more where
  -- The directory was not watched before, and the watch is new.
  once := by
    rw [List.map_append, List.nodup_append]
    refine ⟨follows.once, List.nodup_singleton _, ?_⟩
    intro node old other new same
    obtain ⟨watch, there, rfl⟩ := List.mem_map.mp old
    exact misses watch there (same.trans (List.mem_singleton.mp new))
  alone := by
    rw [List.map_append, List.nodup_append]
    refine ⟨follows.alone, List.nodup_singleton _, ?_⟩
    intro wd_ old other new same
    obtain ⟨watch, there, rfl⟩ := List.mem_map.mp old
    have here : wd = watch.2 := (same.trans (List.mem_singleton.mp new)).symm
    exact fresh (here ▸ follows.issued watch there)
  issued := by
    intro watch mem
    rcases List.mem_append.mp mem with old | new
    · exact List.mem_cons_of_mem _ (follows.issued watch old)
    · rw [List.mem_singleton.mp new]
      exact List.mem_cons_self
  told := by
    intro notice mem
    exact ⟨(follows.told notice mem).1, List.mem_cons_of_mem _ (follows.told notice mem).2⟩
  -- The new watch is cached with the path of its directory, and the others as before.
  cached := by
    intro watch there
    rcases List.mem_append.mp there with old | new
    · obtain ⟨other, there_, same, cached⟩ := follows.cached watch old
      have apart : watch.2.val ≠ wd.val := by
        intro same
        exact fresh (Subtype.ext same ▸ follows.issued watch old)
      exact ⟨other, there_, same, (Function.update_of_ne apart _ _).trans cached⟩
    · rw [List.mem_singleton.mp new]
      exact ⟨dir, mem, rfl, Function.update_self _ _ _⟩
  -- The new watch belongs to a directory, and the others to what they belonged to.
  living := by
    intro number path cached
    by_cases here : number = wd.val
    · exact ⟨wd, here.symm, List.mem_cons_self, .inl ⟨dir.node, by simp⟩⟩
    · rw [Function.update_of_ne here] at cached
      obtain ⟨other, same, known, ⟨node, watch⟩ | ⟨deleted, inner⟩⟩ := follows.living _ _ cached
      · exact ⟨other, same, List.mem_cons_of_mem _ known,
          .inl ⟨node, List.mem_append_left _ watch⟩⟩
      · exact ⟨other, same, List.mem_cons_of_mem _ known, .inr ⟨deleted, inner⟩⟩
  apart := by
    intro watch mem deleted
    rcases List.mem_append.mp mem with old | new
    · exact follows.apart watch old deleted
    · rw [List.mem_singleton.mp new] at deleted
      exact fresh (follows.told _ deleted).2
  known := by
    intro notice mem other
    by_cases here : notice.wd.val = wd.val
    · rw [here, Function.update_self]
      exact nofun
    · rw [Function.update_of_ne here]
      exact follows.known notice mem other
  ordered := follows.ordered
  -- The children of the directory are visited now; all others are told as before.
  found := by
    intro other mem_ misses_
    have unwatched : now.Misses other.node := fun watch there =>
      misses_ watch (List.mem_append_left _ there)
    have apart : other ≠ dir := by
      rintro rfl
      exact misses_ (other.node, wd) (by simp) rfl
    rcases follows.found other mem_ unwatched with here | ⟨node, parent, alone | told⟩
    · exact .inl (covers other mem_ apart here)
    · by_cases same : node = dir.node
      · exact .inl (children other mem_ (same ▸ parent))
      · refine .inr ⟨node, parent, .inl fun watch there => ?_⟩
        rcases List.mem_append.mp there with old | new
        · exact alone watch old
        · rw [List.mem_singleton.mp new]
          exact Ne.symm same
    · obtain ⟨wd_, name, above, front, back, watch, there, same, path, split, deleted⟩ := told
      refine .inr ⟨node, parent, .inr ⟨wd_, name, above, front, back, List.mem_append_left _ watch,
        there, same, path, split, fun old cached => ?_⟩⟩
      -- A directory has one path, so the new watch takes no other one's.
      by_cases here : old.val = wd.val
      · rw [here, Function.update_self] at cached
        exact absurd (Tree.path_unique mem_ mem (Option.some.inj cached).symm) apart
      · rw [Function.update_of_ne here] at cached
        exact deleted old cached

end Walking

section Renaming

/-- The pathnames of the directories are rewritten as those in the cache. -/
theorem path_moved (renames : now.tree.Renames dir above (join above.path.val name.val))
    {parent other : Directory} {oldName : DirName}
    (named : dir.path.val = join parent.path.val oldName.val) :
    (dir.moved above (join above.path.val name.val) other).path =
      renamed parent.path.val oldName.val above.path.val name.val other.path := by
  have fits := renames.fits dir renames.source (isBelow_iff.mpr ⟨[], .inl rfl, by simp⟩)
  rw [List.drop_length, List.append_nil] at fits
  -- Neither the old name nor the new one is cut off by snprintf().
  have old : (snprintf (join parent.path.val oldName.val)).val = dir.path.val := by
    rw [← named]
    exact snprintf_of_fits (Nat.le_sub_one_of_lt dir.path.property)
  have new : (snprintf (join above.path.val name.val)).val = join above.path.val name.val :=
    snprintf_of_fits (Nat.le_sub_one_of_lt fits)
  rw [renamed, old, new, Directory.moved]
  split
  · rfl
  · rfl

/-- When everything has been handled, a rename leaves two events that rewrite the pathnames. -/
theorem Follows.rename (follows : Follows now map [] fun _ => False)
    (renames : now.tree.Renames dir above (join above.path.val name.val))
    (dirs : next.dirs = now.tree.dirs.map (dir.moved above (join above.path.val name.val)))
    {parent : Directory} {oldName : DirName}
    (named : dir.path.val = join parent.path.val oldName.val) :
    Follows { now with tree := next }
      (fun wd => (map wd).map (renamed parent.path.val oldName.val above.path.val name.val)) []
      fun _ => False where
  once := follows.once
  alone := follows.alone
  issued := follows.issued
  told := fun _ mem => absurd mem List.not_mem_nil
  cached := by
    intro watch mem
    obtain ⟨other, there, same, cached⟩ := follows.cached watch mem
    refine ⟨_, dirs ▸ List.mem_map_of_mem there, Directory.moved_node.trans same, ?_⟩
    rw [cached, Option.map_some, path_moved renames named]
  living := by
    intro number path cached
    obtain ⟨old, cached, _⟩ := Option.map_eq_some_iff.mp cached
    obtain ⟨wd, same, known, watched_ | ⟨deleted, _⟩⟩ := follows.living number old cached
    · exact ⟨wd, same, known, .inl watched_⟩
    · exact absurd deleted List.not_mem_nil
  apart := fun _ _ deleted => absurd deleted List.not_mem_nil
  known := fun _ none_ => absurd none_ List.not_mem_nil
  ordered := List.Pairwise.nil
  found := by
    intro moved mem misses
    rw [dirs] at mem
    obtain ⟨other, there, rfl⟩ := List.mem_map.mp mem
    -- All directories are watched already.
    obtain ⟨wd, watch⟩ := follows.complete there
    exact absurd Directory.moved_node.symm (misses _ watch)

end Renaming

end SysProg.Inotify.Following
