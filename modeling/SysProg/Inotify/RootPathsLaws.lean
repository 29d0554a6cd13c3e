import SysProg.Inotify.RootPaths
import SysProg.Inotify.SubtreesLaws

/-! When the pathnames made from events are those that `nftw` reports. -/

namespace SysProg.Inotify

/-- A pathname ends with a slash. -/
def EndsWithSlash (path : List UInt8) : Prop :=
  path.getLast? = some slash

/-- There is nothing to be stripped of a pathname that does not end with a slash. -/
theorem nftwRoot_of_not_endsWithSlash {path : List UInt8} (plain : ¬ EndsWithSlash path) :
    nftwRoot path = path := by
  -- There is no slash at the end that would be taken away.
  have whole : path.rdropWhile (· = slash) = path := by
    rw [List.rdropWhile_eq_self_iff]
    intro some_ last
    apply plain
    rw [EndsWithSlash, List.getLast?_eq_getLast_of_ne_nil some_]
    exact congrArg _ (of_decide_eq_true last)
  rw [nftwRoot, whole]
  split
  next none_ => rw [none_, List.take_nil]
  · rfl

/-- The pathname of the root of the file system is not stripped of its slash. -/
theorem nftwRoot_slash : nftwRoot [slash] = [slash] := by decide

/-- Any other pathname that ends with a slash loses it. -/
theorem nftwRoot_ne_of_endsWithSlash {path : List UInt8} (ends : EndsWithSlash path)
    (other : path ≠ [slash]) : nftwRoot path ≠ path := by
  have last : path.rdropWhile (· = slash) ≠ path := by
    intro whole
    have nonempty : path ≠ [] := by
      rintro rfl
      exact nomatch ends
    have plain := List.rdropWhile_eq_self_iff.mp whole nonempty
    rw [EndsWithSlash, List.getLast?_eq_getLast_of_ne_nil nonempty] at ends
    exact plain (decide_eq_true (Option.some.inj ends))
  unfold nftwRoot
  split
  · -- Only one of the slashes is left.
    intro whole
    have short : path.length ≤ 1 := by
      rw [← whole, List.length_take]
      omega
    match path with
    | [] => exact nomatch ends
    | [c] => exact other (congrArg (fun c => [c]) (Option.some.inj ends))
    | _ :: _ :: _ => exact absurd short (by simp)
  · exact last

/-- The pathname of a file in a directory comes from that of the directory. -/
theorem nftwPath_append (dir : List UInt8) (names : List FileName) (name : FileName) :
    nftwPath dir (names ++ [name]) = nftwChild (nftwPath dir names) name.val := by
  rw [nftwPath, List.foldl_append]
  rfl

/-- The pathname of a file in a directory is not that of the root of the file system. -/
theorem nftwChild_ne_slash (dir : List UInt8) (name : FileName) :
    nftwChild dir name.val ≠ [slash] := by
  -- The path of a child has at least the letters of its name and the slash before it.
  intro same
  have length := congrArg List.length same
  have some_ := List.length_pos_iff.mpr name.property.1
  unfold nftwChild join at length
  split at length
  · rw [List.length_cons, List.length_singleton] at length
    omega
  · rw [List.length_append, List.length_cons, List.length_singleton] at length
    omega

/-- Only the argument itself can be the root of the file system. -/
theorem nftwPath_eq_slash_iff (dir : List UInt8) (names : List FileName) :
    nftwPath dir names = [slash] ↔ names = [] ∧ nftwRoot dir = [slash] := by
  -- By induction on the names, the last one first.
  induction names using List.reverseRecOn with
  | nil => exact ⟨fun same => ⟨rfl, same⟩, And.right⟩
  | append_singleton names name _ =>
    rw [nftwPath_append]
    exact ⟨fun same => absurd same (nftwChild_ne_slash _ name), fun both => by simp at both⟩

/-- What the events on a directory say of a subdirectory agrees with what `nftw` has reported. -/
structure Coherent (program : Program) (root : List UInt8) (parents : List FileName)
    (name : FileName) : Prop where
  /-- The full pathname of an event is the one under which the subdirectory is cached. -/
  full : fullPathOf (nftwPath root parents) name.val = nftwPath root (parents ++ [name])
  renamed : (snprintf (join (nftwPath root parents) name.val)).val =
    nftwPath root (parents ++ [name])
  /-- So the cached item of the subdirectory is found, rewritten and zapped. -/
  found : ∀ cache : Cache, ∀ slot ∈ cache, 0 ≤ slot.wd →
    slot.path.val = nftwPath root (parents ++ [name]) →
      pathnameInCache cache (fullPathOf (nftwPath root parents) name.val) = true ∧
        isBelow (snprintf (join (nftwPath root parents) name.val)).val slot.path.val = true ∧
          slot.Zaps (fullPathOf (nftwPath root parents) name.val)
  recognised : program.isRootDirPath (nftwPath root []) = true

/-- A cached item is found by its pathname. -/
theorem pathnameInCache_of_mem {cache : Cache} {slot : Slot} (mem : slot ∈ cache)
    (live : 0 ≤ slot.wd) : pathnameInCache cache slot.path.val = true := by
  rw [pathnameInCache, pathnameToCacheSlot, List.findIdx?_isSome, List.any_eq_true]
  exact ⟨slot, mem, by simp [live]⟩

/-- Where the directory is not the root of the file system, the names are put together alike. -/
theorem coherent_of_ne_slash {program : Program} {root : List UInt8} {parents : List FileName}
    {name : FileName} (fits : (nftwPath root (parents ++ [name])).length < pathMax)
    (below : nftwPath root parents ≠ [slash])
    (known : some (nftwRoot root) ∈ program.rootDirPaths) :
    Coherent program root parents name := by
  -- `nftw` puts one slash before the name, as the program does.
  have child : nftwPath root (parents ++ [name]) = join (nftwPath root parents) name.val := by
    rw [nftwPath_append, nftwChild, if_neg below]
  rw [child] at fits
  have full : fullPathOf (nftwPath root parents) name.val = nftwPath root (parents ++ [name]) := by
    rw [child]
    exact List.take_of_length_le (by omega)
  have renamed : (snprintf (join (nftwPath root parents) name.val)).val =
      nftwPath root (parents ++ [name]) := by
    rw [child]
    exact snprintf_of_fits (by omega)
  refine ⟨full, renamed, fun cache slot mem live path => ?_, decide_eq_true known⟩
  have itself : ∃ rest, Below rest ∧ slot.path.val = nftwPath root (parents ++ [name]) ++ rest :=
    ⟨[], .inl rfl, by rw [path, List.append_nil]⟩
  rw [full, renamed, ← path]
  rw [← path] at itself
  exact ⟨pathnameInCache_of_mem mem live, isBelow_iff.mpr itself, live, itself⟩

/-- At the root of the file system, the full pathname of an event begins with two slashes. -/
theorem fullPathOf_slash_ne (name : FileName) :
    fullPathOf [slash] name.val ≠ nftwChild [slash] name.val := by
  intro same
  obtain ⟨nonempty, plain⟩ := name.property
  cases bytes : name.val with
  | nil => exact nonempty bytes
  | cons c rest =>
    rw [bytes] at same plain
    -- The second byte is the slash before the name, or the first byte of the name itself.
    have second := congrArg (fun path => path[1]?) same
    simp [fullPathOf, nftwChild, join, pathMax, nameMax] at second
    exact plain (by rw [second]; exact List.mem_cons_self)

/-- What is known of root directories that have been accepted. -/
theorem copyRootDirPaths_ok {lstat : List UInt8 → Option Stat} {argv : List (List UInt8)}
    {paths : List (Option (List UInt8))} (accepted : copyRootDirPaths lstat argv = .ok paths) :
    paths = argv.map some ∧ (∀ path ∈ argv, (lstat path).any Stat.isDir) ∧
      argv.Pairwise fun first second =>
        (lstat first).map Stat.object ≠ (lstat second).map Stat.object := by
  unfold copyRootDirPaths at accepted
  -- All arguments are directories, and then no two of them are the same one.
  split at accepted
  next dirs =>
    split at accepted
    next different => exact ⟨(Except.ok.inj accepted).symm, dirs, different⟩
    · exact nomatch accepted
  · exact nomatch accepted

/-- Slashes at the end of the pathname of a directory do not make it that of another. -/
def IgnoresTrailingSlashes (lstat : List UInt8 → Option Stat) : Prop :=
  ∀ path, (lstat path).any Stat.isDir → (lstat (nftwRoot path)).any Stat.isDir →
    (lstat path).map Stat.object = (lstat (nftwRoot path)).map Stat.object

/-- The cached pathname of a root directory is recognised only if nothing is stripped of it. -/
theorem nftwRoot_eq_of_mem {lstat : List UInt8 → Option Stat} {argv : List (List UInt8)}
    (dirs : ∀ path ∈ argv, (lstat path).any Stat.isDir)
    (different : argv.Pairwise fun first second =>
      (lstat first).map Stat.object ≠ (lstat second).map Stat.object)
    (ignores : IgnoresTrailingSlashes lstat) {root : List UInt8} (mem : root ∈ argv)
    (known : nftwRoot root ∈ argv) : nftwRoot root = root := by
  by_contra other
  have symmetric : Std.Symm fun first second : List UInt8 =>
      (lstat first).map Stat.object ≠ (lstat second).map Stat.object := ⟨fun _ _ => Ne.symm⟩
  -- Otherwise the same directory has been given twice.
  have apart := different.forall mem known (Ne.symm other)
  exact apart (ignores root (dirs root mem) (dirs _ known))

/-- The names agree unless slashes at the end are stripped, or the file system has its root here. -/
theorem coherent_iff (lstat : List UInt8 → Option Stat) (ignores : IgnoresTrailingSlashes lstat)
    (argv : List (List UInt8)) (program : Program)
    (accepted : copyRootDirPaths lstat argv = .ok program.rootDirPaths)
    (root : List UInt8) (mem : root ∈ argv) (parents : List FileName) (name : FileName)
    (fits : (nftwPath root (parents ++ [name])).length < pathMax) :
    Coherent program root parents name ↔
      ¬ EndsWithSlash root ∨ (root = [slash] ∧ parents ≠ []) := by
  obtain ⟨paths, dirs, different⟩ := copyRootDirPaths_ok accepted
  constructor
  · intro coherent
    have known := of_decide_eq_true coherent.recognised
    rw [paths, List.mem_map] at known
    obtain ⟨other, there, same⟩ := known
    obtain rfl : other = nftwRoot root := Option.some.inj same
    have whole := nftwRoot_eq_of_mem dirs different ignores mem there
    by_cases ends : EndsWithSlash root
    · -- Only the root of the file system keeps its slash.
      have top : root = [slash] := by
        by_contra other
        exact nftwRoot_ne_of_endsWithSlash ends other whole
      refine .inr ⟨top, fun none_ => ?_⟩
      have full := coherent.full
      rw [nftwPath_append, none_, top] at full
      have at_ : nftwPath [slash] [] = [slash] := nftwRoot_slash
      rw [at_] at full
      exact fullPathOf_slash_ne name full
    · exact .inl ends
  · intro either
    -- The argument is cached as it is, so that it is recognised.
    have whole : nftwRoot root = root := by
      rcases either with plain | ⟨top, _⟩
      · exact nftwRoot_of_not_endsWithSlash plain
      · rw [top, nftwRoot_slash]
    have below : nftwPath root parents ≠ [slash] := by
      intro same
      obtain ⟨none_, at_⟩ := (nftwPath_eq_slash_iff root parents).mp same
      rw [whole] at at_
      rcases either with plain | ⟨_, some_⟩
      · exact plain (by rw [at_]; rfl)
      · exact some_ none_
    have known : some (nftwRoot root) ∈ program.rootDirPaths := by
      rw [paths, whole]
      exact List.mem_map_of_mem mem
    exact coherent_of_ne_slash fits below known

/-- A file system with one directory besides its root. -/
def oneDirectory (path : List UInt8) : Option Stat :=
  if path = [47] then some ⟨true, 1, 1⟩
  else if path = [47, 100] ∨ path = [47, 100, 47] then some ⟨true, 2, 1⟩
  else none

/-- A program that has just begun to monitor these root directories. -/
def started (paths : List (Option (List UInt8))) : Program where
  cache := []
  rootDirPaths := paths
  ignoreRootDirs := 0
  inotifyFd := 0
  inotifyReadCnt := 0
  eventCnt := 0

/-- In this file system, slashes at the end are ignored. -/
theorem oneDirectory_ignores : IgnoresTrailingSlashes oneDirectory := by
  intro path dir _
  -- There are the root, one directory, and nothing else.
  by_cases root : path = [47]
  · subst root
    decide
  · by_cases other : path = [47, 100] ∨ path = [47, 100, 47]
    · rcases other with rfl | rfl <;> decide
    · simp [oneDirectory, root, other] at dir

/-- The directory is given without a slash at its end. -/
theorem coherent_iff_oneDirectory :
    Coherent (started [some [47, 100]]) [47, 100] [⟨[97], by decide⟩] ⟨[98], by decide⟩ ↔
      ¬ EndsWithSlash [47, 100] ∨ ([47, 100] = [slash] ∧ [(⟨[97], by decide⟩ : FileName)] ≠ []) :=
  coherent_iff oneDirectory oneDirectory_ignores [[47, 100]] (started [some [47, 100]]) rfl _
    (by decide) _ _ (by decide)

/-- With the root of the file system, two slashes are put before a name; a slash is stripped. -/
theorem not_coherent :
    ¬ ∀ (lstat : List UInt8 → Option Stat), IgnoresTrailingSlashes lstat →
      ∀ (argv : List (List UInt8)) (program : Program),
        copyRootDirPaths lstat argv = .ok program.rootDirPaths → ∀ root ∈ argv,
          ∀ (parents : List FileName) (name : FileName),
            (nftwPath root (parents ++ [name])).length < pathMax →
              Coherent program root parents name := by
  -- With the root "/", the path of an event has two slashes, and that of nftw() has one.
  intro promised
  have coherent := promised oneDirectory oneDirectory_ignores [[47]] (started [some [47]]) rfl [47]
    (by decide) [] ⟨[100], by decide⟩ (by decide)
  exact absurd coherent.full (by decide)

end SysProg.Inotify
