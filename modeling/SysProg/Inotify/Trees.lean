import SysProg.Inotify.Events
import SysProg.Inotify.SubtreesLaws

/-! The directory trees that are monitored, and what another process does to them. -/

namespace SysProg.Inotify

/-- The name of a directory, which an event can carry as a string. -/
abbrev DirName := { bytes : List UInt8 //
  bytes ≠ [] ∧ slash ∉ bytes ∧ 0 ∉ bytes ∧ bytes.length ≤ nameMax }

/-- The beginning of a pathname can be taken apart from the name at its end. -/
theorem join_append (front rest name : List UInt8) :
    join (front ++ rest) name = front ++ join rest name := by
  rw [join, join, List.append_assoc]

/-- A pathname is below that of a directory if it is below its parent's, or if it is the same. -/
theorem isBelow_join {old dir : List UInt8} (name : DirName) :
    isBelow old (join dir name.val) = true ↔ isBelow old dir = true ∨ join dir name.val = old := by
  rw [isBelow_iff, isBelow_iff]
  constructor
  · rintro ⟨rest, below, path⟩
    rcases below with rfl | ⟨names, rfl⟩
    · exact .inr (path.trans (List.append_nil old))
    -- The slash behind the old pathname is the one before the name, or comes earlier.
    rcases List.append_eq_append_iff.mp path with ⟨more, rfl, split⟩ | ⟨more, rfl, split⟩
    · cases more with
      | nil => exact .inl ⟨[], .inl rfl, by simp⟩
      | cons byte more =>
        rw [List.cons_append, List.cons.injEq] at split
        exact absurd (split.2 ▸ by simp : slash ∈ name.val) name.property.2.1
    · refine .inl ⟨more, ?_, rfl⟩
      cases more with
      | nil => exact .inl rfl
      | cons byte more =>
        rw [List.cons_append, List.cons.injEq] at split
        exact .inr ⟨more, by rw [← split.1]⟩
  · rintro (⟨rest, below, rfl⟩ | rfl)
    · refine ⟨rest ++ slash :: name.val, ?_, by simp [join]⟩
      rcases below with rfl | ⟨names, rfl⟩
      · exact .inr ⟨name.val, rfl⟩
      · exact .inr ⟨names ++ slash :: name.val, rfl⟩
    · exact ⟨[], .inl rfl, (List.append_nil _).symm⟩

/-- The pathname of a directory is longer than that of its parent. -/
theorem length_lt_join (dir name : List UInt8) : dir.length < (join dir name).length := by
  rw [join, List.length_append, List.length_cons]
  omega

/-- A directory, which stays the same one under another name; a root directory has no parent. -/
structure Directory where
  node : Nat
  parent : Option Nat
  path : Pathname
  deriving DecidableEq

/-- The directories that exist, of which all but the root directories are in another one. -/
structure Tree where
  dirs : List Directory
  /-- How many directories have been made so far. -/
  made : Nat
  recent : ∀ dir ∈ dirs, dir.node < made
  nodes : (dirs.map Directory.node).Nodup
  paths : (dirs.map Directory.path).Nodup
  parents : ∀ dir ∈ dirs, ∀ node, dir.parent = some node →
    ∃ above ∈ dirs, above.node = node ∧
      ∃ name : DirName, dir.path.val = join above.path.val name.val

namespace Tree

/-- The directory that a pathname leads to. -/
def lookup (tree : Tree) (path : List UInt8) : Option Directory :=
  tree.dirs.find? fun dir => dir.path.val = path

/-- The directory with this identity. -/
def directory (tree : Tree) (node : Nat) : Option Directory :=
  tree.dirs.find? fun dir => dir.node = node

/-- The directories in a directory. -/
def children (tree : Tree) (node : Nat) : List Directory :=
  tree.dirs.filter fun dir => dir.parent = some node

/-- The pathnames of the root directories. -/
def roots (tree : Tree) : List (List UInt8) :=
  (tree.dirs.filter fun dir => dir.parent = none).map fun dir => dir.path.val

variable (tree : Tree)

/-- What `mkdir` makes of a directory that is there, if the name is not taken. -/
def mkdir (above : Directory) (name : DirName) : Option Tree :=
  if able : above ∈ tree.dirs ∧ (join above.path.val name.val).length < pathMax ∧
      ∀ dir ∈ tree.dirs, dir.path.val ≠ join above.path.val name.val then
    some
      { dirs := tree.dirs ++ [⟨tree.made, some above.node, ⟨_, able.2.1⟩⟩]
        made := tree.made + 1
        recent := by
          simp only [List.mem_append, List.mem_singleton]
          rintro dir (mem | rfl)
          · exact Nat.lt_succ_of_lt (tree.recent dir mem)
          · exact Nat.lt_succ_self _
        nodes := by
          rw [List.map_append, List.nodup_append]
          refine ⟨tree.nodes, List.nodup_singleton _, ?_⟩
          intro node old other new same
          obtain ⟨dir, mem, rfl⟩ := List.mem_map.mp old
          have recent := tree.recent dir mem
          simp only [List.map_cons, List.map_nil, List.mem_singleton] at new
          omega
        paths := by
          rw [List.map_append, List.nodup_append]
          refine ⟨tree.paths, List.nodup_singleton _, ?_⟩
          intro path old other new same
          obtain ⟨dir, mem, rfl⟩ := List.mem_map.mp old
          obtain rfl := List.mem_singleton.mp new
          exact able.2.2 dir mem (congrArg Subtype.val same)
        parents := by
          simp only [List.mem_append, List.mem_singleton]
          rintro dir (mem | rfl) node parent
          · obtain ⟨parent_, there, same, named⟩ := tree.parents dir mem node parent
            exact ⟨parent_, .inl there, same, named⟩
          · exact ⟨above, .inl able.1, Option.some.inj parent, name, rfl⟩ }
  else none

/-- What `rmdir` makes of the directories, if the directory is empty and not a root directory. -/
def rmdir (gone : Directory) : Option Tree :=
  if able : gone ∈ tree.dirs ∧ gone.parent.isSome ∧
      ∀ dir ∈ tree.dirs, dir.parent ≠ some gone.node then
    some
      { dirs := tree.dirs.filter (· ≠ gone)
        made := tree.made
        recent := fun dir mem => tree.recent dir (List.mem_of_mem_filter mem)
        nodes := tree.nodes.sublist (List.filter_sublist.map _)
        paths := tree.paths.sublist (List.filter_sublist.map _)
        parents := by
          intro dir mem node parent
          have there := List.mem_of_mem_filter mem
          obtain ⟨above, stays, rfl, named⟩ := tree.parents dir there node parent
          -- The parent is not the directory that is gone, which has no directory in it.
          have kept : above ≠ gone := fun same => able.2.2 dir there (same ▸ parent)
          exact ⟨above, List.mem_filter.mpr ⟨stays, decide_eq_true kept⟩, rfl, named⟩ }
  else none

end Tree

/-- What becomes of a directory when one of them moves into another, where it gets a pathname. -/
def Directory.moved (dir above : Directory) (new : List UInt8) (other : Directory) : Directory :=
  if isBelow dir.path.val other.path.val then
    { other with
      parent := if other = dir then some above.node else other.parent
      path := snprintf (new ++ other.path.val.drop dir.path.val.length) }
  else other

/-- A directory can be renamed, with all that is below it. -/
structure Tree.Renames (tree : Tree) (dir above : Directory) (new : List UInt8) : Prop where
  source : dir ∈ tree.dirs
  target : above ∈ tree.dirs
  /-- No directory moves into itself. -/
  outside : isBelow dir.path.val above.path.val = false
  /-- The name is not taken. -/
  free : ∀ other ∈ tree.dirs, isBelow new other.path.val = false
  /-- Neither the directory nor one below it is a root directory. -/
  roots : ∀ other ∈ tree.dirs, isBelow dir.path.val other.path.val = true → other.parent.isSome
  fits : ∀ other ∈ tree.dirs, isBelow dir.path.val other.path.val = true →
    (new ++ other.path.val.drop dir.path.val.length).length < pathMax

instance (tree : Tree) (dir above : Directory) (new : List UInt8) :
    Decidable (tree.Renames dir above new) :=
  decidable_of_iff (dir ∈ tree.dirs ∧ above ∈ tree.dirs ∧
      isBelow dir.path.val above.path.val = false ∧
      (∀ other ∈ tree.dirs, isBelow new other.path.val = false) ∧
      (∀ other ∈ tree.dirs, isBelow dir.path.val other.path.val = true → other.parent.isSome) ∧
      ∀ other ∈ tree.dirs, isBelow dir.path.val other.path.val = true →
        (new ++ other.path.val.drop dir.path.val.length).length < pathMax)
    ⟨fun ⟨source, target, outside, free, roots, fits⟩ =>
        ⟨source, target, outside, free, roots, fits⟩,
      fun ⟨source, target, outside, free, roots, fits⟩ =>
        ⟨source, target, outside, free, roots, fits⟩⟩

section Moved

variable {tree : Tree} {dir above other : Directory} {new : List UInt8}

/-- A directory elsewhere is as it was. -/
theorem Directory.moved_other (elsewhere : isBelow dir.path.val other.path.val = false) :
    dir.moved above new other = other := by
  rw [Directory.moved, elsewhere]
  rfl

/-- The identity of a directory does not change. -/
@[simp] theorem Directory.moved_node : (dir.moved above new other).node = other.node := by
  unfold Directory.moved
  split <;> rfl

/-- Exactly the beginning of the pathname is replaced. -/
theorem Tree.Renames.path (renames : tree.Renames dir above new) (mem : other ∈ tree.dirs)
    {rest : List UInt8} (below : Below rest) (path : other.path.val = dir.path.val ++ rest) :
    (dir.moved above new other).path.val = new ++ rest := by
  -- The directory is below the one renamed, so the front of its path is replaced.
  have here : isBelow dir.path.val other.path.val = true := isBelow_iff.mpr ⟨rest, below, path⟩
  have fits := renames.fits other mem here
  rw [Directory.moved, if_pos here]
  show (snprintf _).val = _
  rw [snprintf_of_fits (by omega), path, List.drop_left]

/-- A directory moves below the new pathname exactly if it was below the old one. -/
theorem Tree.Renames.isBelow_moved (renames : tree.Renames dir above new)
    (mem : other ∈ tree.dirs) :
    isBelow new (dir.moved above new other).path.val = isBelow dir.path.val other.path.val := by
  -- What was not below the old name is not below the new one, which was free.
  cases here : isBelow dir.path.val other.path.val with
  | false =>
    rw [Directory.moved_other here]
    exact renames.free other mem
  | true =>
    obtain ⟨rest, below, path⟩ := isBelow_iff.mp here
    rw [renames.path mem below path]
    exact isBelow_iff.mpr ⟨rest, below, rfl⟩

/-- No two directories get the same pathname. -/
theorem Tree.Renames.injective (renames : tree.Renames dir above new) {one two : Directory}
    (first : one ∈ tree.dirs) (second : two ∈ tree.dirs)
    (same : (dir.moved above new one).path = (dir.moved above new two).path) :
    one.path = two.path := by
  -- Of two directories with one new path, both were moved or neither was.
  have left := renames.isBelow_moved first
  have right := renames.isBelow_moved second
  rw [same, right] at left
  cases here : isBelow dir.path.val one.path.val with
  | false =>
    rw [here] at left
    rwa [Directory.moved_other here, Directory.moved_other left] at same
  | true =>
    rw [here] at left
    obtain ⟨rest, below, path⟩ := isBelow_iff.mp here
    obtain ⟨rest_, below_, path_⟩ := isBelow_iff.mp left
    have moved := congrArg Subtype.val same
    rw [renames.path first below path, renames.path second below_ path_] at moved
    exact Subtype.ext (by rw [path, path_, List.append_cancel_left moved])

end Moved

namespace Tree

variable (tree : Tree)

/-- What `rename` makes of the directories. -/
def rename (dir above : Directory) (name : DirName) : Option Tree :=
  if renames : tree.Renames dir above (join above.path.val name.val) then
    some
      { dirs := tree.dirs.map (dir.moved above (join above.path.val name.val))
        made := tree.made
        recent := by
          intro moved mem
          obtain ⟨other, there, rfl⟩ := List.mem_map.mp mem
          rw [Directory.moved_node]
          exact tree.recent other there
        nodes := by
          rw [List.map_map, show Directory.node ∘ dir.moved above _ = Directory.node from
            funext fun _ => Directory.moved_node]
          exact tree.nodes
        paths := by
          rw [List.map_map]
          refine List.Nodup.map_on ?_ (List.Nodup.of_map _ tree.paths)
          intro one first two second same
          exact List.inj_on_of_nodup_map tree.paths first second
            (renames.injective first second same)
        parents := by
          intro moved mem node parent
          obtain ⟨other, there, rfl⟩ := List.mem_map.mp mem
          cases here : isBelow dir.path.val other.path.val with
          | false =>
            -- What is not below the directory has no parent there either.
            rw [Directory.moved_other here] at parent ⊢
            obtain ⟨upper, stays, same, called, path⟩ := tree.parents other there node parent
            have elsewhere : isBelow dir.path.val upper.path.val = false := by
              rw [path, Bool.eq_false_iff, ne_eq, isBelow_join] at here
              exact Bool.eq_false_iff.mpr fun below => here (.inl below)
            refine ⟨upper, List.mem_map.mpr ⟨upper, stays, Directory.moved_other elsewhere⟩, same,
              called, path⟩
          | true =>
            obtain ⟨rest, below, path⟩ := isBelow_iff.mp here
            rw [renames.path there below path]
            rw [Directory.moved, if_pos here] at parent
            simp only at parent
            split at parent
            next itself =>
              -- The directory itself is now in the other one, which has not moved.
              subst itself
              have none_ : rest = [] := by simpa using path.symm
              refine ⟨above, List.mem_map.mpr ⟨above, renames.target,
                Directory.moved_other renames.outside⟩, Option.some.inj parent, name, ?_⟩
              rw [none_, List.append_nil]
            next different =>
              -- The parent of any other directory has moved along.
              obtain ⟨upper, stays, same, called, path_⟩ := tree.parents other there node parent
              have along : isBelow dir.path.val upper.path.val = true := by
                rw [path_, isBelow_join] at here
                rcases here with along | itself
                · exact along
                · have twin : other.path = dir.path := Subtype.ext (path_.trans itself)
                  exact absurd (List.inj_on_of_nodup_map tree.paths there renames.source twin)
                    different
              obtain ⟨middle, below_, start⟩ := isBelow_iff.mp along
              refine ⟨dir.moved above _ upper, List.mem_map_of_mem stays, ?_, called, ?_⟩
              · rw [Directory.moved_node]
                exact same
              · rw [renames.path stays below_ start, join_append]
                rw [path, start, join_append] at path_
                rw [List.append_cancel_left path_] }
  else none

end Tree

end SysProg.Inotify
