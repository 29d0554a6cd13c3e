import SysProg.Inotify.Trees

/-! What is found in the trees, and how each change of another process shows there. -/

namespace SysProg.Inotify.Tree

variable {tree next : Tree} {dir above : Directory} {name : DirName}

/-- Where keys are distinct, what is found under a key is what has it. -/
theorem find?_eq_some_iff_of_nodup {α κ : Type} [DecidableEq κ] {key : α → κ} {items : List α}
    (nodup : (items.map key).Nodup) {wanted : κ} {item : α} :
    items.find? (fun other => key other = wanted) = some item ↔
      item ∈ items ∧ key item = wanted := by
  constructor
  · intro found
    exact ⟨List.mem_of_find?_eq_some found, by simpa using List.find?_some found⟩
  · rintro ⟨mem, rfl⟩
    cases found : items.find? fun other => key other = key item with
    | none => simpa using List.find?_eq_none.mp found item mem
    | some other =>
      -- Whatever is found has the same key, so it is the same item.
      have there := List.mem_of_find?_eq_some found
      have same : key other = key item := by simpa using List.find?_some found
      rw [List.inj_on_of_nodup_map nodup there mem same]

/-- No two directories have the same pathname. -/
theorem paths_val (tree : Tree) : (tree.dirs.map fun dir => dir.path.val).Nodup := by
  have mapped := tree.paths.map Subtype.val_injective
  rwa [List.map_map] at mapped

/-- A pathname leads to the directory that has it. -/
theorem lookup_eq_some_iff {path : List UInt8} :
    tree.lookup path = some dir ↔ dir ∈ tree.dirs ∧ dir.path.val = path :=
  find?_eq_some_iff_of_nodup tree.paths_val

/-- An identity leads to the directory that has it. -/
theorem directory_eq_some_iff {node : Nat} :
    tree.directory node = some dir ↔ dir ∈ tree.dirs ∧ dir.node = node :=
  find?_eq_some_iff_of_nodup tree.nodes

/-- There are no two directories with one identity. -/
theorem node_unique {one two : Directory} (first : one ∈ tree.dirs) (second : two ∈ tree.dirs)
    (same : one.node = two.node) : one = two :=
  List.inj_on_of_nodup_map tree.nodes first second same

/-- There are no two directories with one pathname. -/
theorem path_unique {one two : Directory} (first : one ∈ tree.dirs) (second : two ∈ tree.dirs)
    (same : one.path = two.path) : one = two :=
  List.inj_on_of_nodup_map tree.paths first second same

/-- The directories in a directory are those that name it as their parent. -/
theorem mem_children {node : Nat} :
    dir ∈ tree.children node ↔ dir ∈ tree.dirs ∧ dir.parent = some node := by
  rw [children, List.mem_filter, decide_eq_true_iff]

/-- The pathnames of the root directories are those of the directories without a parent. -/
theorem mem_roots {path : List UInt8} :
    path ∈ tree.roots ↔ ∃ dir ∈ tree.dirs, dir.parent = none ∧ dir.path.val = path := by
  simp only [roots, List.mem_map, List.mem_filter, decide_eq_true_eq]
  -- The roots are the paths of the directories without a parent.
  constructor
  · rintro ⟨dir, ⟨mem, top⟩, path⟩
    exact ⟨dir, mem, top, path⟩
  · rintro ⟨dir, mem, top, path⟩
    exact ⟨dir, ⟨mem, top⟩, path⟩

/-- The root directories have different pathnames. -/
theorem roots_nodup (tree : Tree) : tree.roots.Nodup :=
  tree.paths_val.sublist (List.filter_sublist.map _)

/-- What is true of a new directory. -/
structure Made (tree : Tree) (above : Directory) (name : DirName) (new : Directory)
    (next : Tree) : Prop where
  dirs : next.dirs = tree.dirs ++ [new]
  target : above ∈ tree.dirs
  parent : new.parent = some above.node
  path : new.path.val = join above.path.val name.val
  /-- Neither the identity nor the pathname is that of another directory. -/
  fresh : ∀ dir ∈ tree.dirs, dir.node ≠ new.node ∧ dir.path ≠ new.path

/-- `mkdir` adds one new directory. -/
theorem mkdir_eq_some (made : tree.mkdir above name = some next) :
    ∃ new, Made tree above name new next := by
  rw [mkdir] at made
  -- A directory is made only under a free name.
  split at made
  next able =>
    obtain rfl := Option.some.inj made
    refine ⟨⟨tree.made, some above.node, ⟨_, able.2.1⟩⟩, rfl, able.1, rfl, rfl, ?_⟩
    intro dir mem
    have recent := tree.recent dir mem
    exact ⟨recent.ne, fun same => able.2.2 dir mem (congrArg Subtype.val same)⟩
  · exact nomatch made

/-- What is true of a directory that is removed. -/
structure Removed (tree : Tree) (gone : Directory) (next : Tree) : Prop where
  dirs : next.dirs = tree.dirs.filter (· ≠ gone)
  source : gone ∈ tree.dirs
  parent : gone.parent ≠ none
  /-- It is empty. -/
  empty : ∀ dir ∈ tree.dirs, dir.parent ≠ some gone.node

/-- `rmdir` removes one empty directory. -/
theorem rmdir_eq_some (removed : tree.rmdir dir = some next) : Removed tree dir next := by
  rw [rmdir] at removed
  -- A directory is removed only if it is empty and no root.
  split at removed
  next able =>
    obtain rfl := Option.some.inj removed
    exact ⟨rfl, able.1, Option.isSome_iff_ne_none.mp able.2.1, able.2.2⟩
  · exact nomatch removed

/-- `rename` moves the directories that are below the old pathname. -/
theorem rename_eq_some (renamed : tree.rename dir above name = some next) :
    tree.Renames dir above (join above.path.val name.val) ∧
      next.dirs = tree.dirs.map (dir.moved above (join above.path.val name.val)) := by
  rw [rename] at renamed
  -- A directory is renamed only where the new name is free and not below it.
  split at renamed
  next renames =>
    obtain rfl := Option.some.inj renamed
    exact ⟨renames, rfl⟩
  · exact nomatch renamed

/-- A new directory is no root directory. -/
theorem Made.roots {new : Directory} (made : Made tree above name new next) :
    next.roots = tree.roots := by
  -- The new directory has a parent, so it is no root.
  have nested : ¬ new.parent = none := by
    rw [made.parent]
    exact nofun
  rw [Tree.roots, Tree.roots, made.dirs, List.filter_append, List.filter_singleton,
    decide_eq_false nested]
  simp

/-- A root directory is not removed. -/
theorem Removed.roots (removed : Removed tree dir next) : next.roots = tree.roots := by
  rw [Tree.roots, Tree.roots, removed.dirs, List.filter_filter]
  congr 1
  apply List.filter_congr
  intro other _
  -- What has no parent is not the directory that is gone.
  by_cases top : other.parent = none
  · have kept : other ≠ dir := fun same => removed.parent (same ▸ top)
    simp [top, kept]
  · simp [top]

/-- A root directory stays a root directory, and where it is. -/
theorem Renames.root {new : List UInt8} {other : Directory} (renames : tree.Renames dir above new)
    (mem : other ∈ tree.dirs) (top : other.parent = none) : dir.moved above new other = other := by
  -- What is below the directory renamed has a parent.
  apply Directory.moved_other
  rw [Bool.eq_false_iff]
  intro below
  have nested := renames.roots other mem below
  rw [top] at nested
  exact nomatch nested

/-- What has moved has a parent exactly if it had one before. -/
theorem Renames.parent_eq_none_iff {new : List UInt8} {other : Directory}
    (renames : tree.Renames dir above new) (mem : other ∈ tree.dirs) :
    (dir.moved above new other).parent = none ↔ other.parent = none := by
  -- A directory that is moved had a parent, and has one then.
  constructor
  · intro top
    rw [Directory.moved] at top
    split at top
    next below =>
      simp only at top
      split at top
      · exact nomatch top
      · exact top
    · exact top
  · intro top
    rw [renames.root mem top]
    exact top

/-- Renaming leaves the root directories alone. -/
theorem Renames.roots_eq {new : List UInt8} (renames : tree.Renames dir above new)
    (dirs : next.dirs = tree.dirs.map (dir.moved above new)) : next.roots = tree.roots := by
  rw [Tree.roots, Tree.roots, dirs, List.filter_map, List.map_map]
  -- The directories without a parent stay, with their paths.
  have kept : tree.dirs.filter ((fun dir => decide (dir.parent = none)) ∘ dir.moved above new) =
      tree.dirs.filter fun dir => decide (dir.parent = none) := by
    apply List.filter_congr
    intro other mem
    exact decide_eq_decide.mpr (renames.parent_eq_none_iff mem)
  rw [kept]
  apply List.map_congr_left
  intro other mem
  obtain ⟨there, top⟩ := List.mem_filter.mp mem
  rw [Function.comp_apply, renames.root there (of_decide_eq_true top)]

end SysProg.Inotify.Tree
