import SysProg.Inotify.RewritePaths
import SysProg.Inotify.SubtreesLaws

/-! Which cached pathnames `rewriteCachedPaths` truncates without a message about it. -/

namespace SysProg.Inotify

/-- An item at or below a directory, with what follows the pathname of the directory in its own. -/
def CacheItem.Under (item : CacheItem) (directory rest : List UInt8) : Prop :=
  Below rest ∧ item.path.string.val = directory ++ rest

/-- The item holds its complete new pathname, or a message says that it was truncated. -/
def ItemRewriting.NotSilent (iteration : ItemRewriting) (new rest : List UInt8) : Prop :=
  iteration.item.path.string.val = new ++ rest ∨
    ∃ newPath, .truncated newPath ∈ iteration.messages

/-- After a call, there is for every item under the old pathname what is promised. -/
def Rewriting.NeverSilent (rewriting : Rewriting) (cache : List CacheItem) (old new : List UInt8) :
    Prop :=
  ∀ (j : Nat) (item : CacheItem), cache[j]? = some item → ∀ rest, item.Under old rest →
    ∃ iteration, rewriting.iterations[j]? = some iteration ∧ iteration.NotSilent new rest

/-- The new pathname fits, or what is formatted for it, from the new prefix, is long enough. -/
def Noticed (new rest : List UInt8) : Prop :=
  new.length + rest.length < pathMax ∨ pathMax < min new.length (pathMax - 1) + rest.length

/-- A pathname of exactly `PATH_MAX` bytes is truncated by one, and that is not noticed. -/
theorem not_noticed {new rest : List UInt8}
    (full : new.length + rest.length = pathMax) : ¬ Noticed new rest := by
  unfold Noticed
  omega

section Item

variable {fullPath newPrefix : StringBuffer pathMax} {newPath : CharArray pathMax} {j : Nat}
  {item : CacheItem}

/-- What is done with an item at or below the full pathname, and whether there is a message. -/
theorem rewriteItem_of_below (newPath : CharArray pathMax) (j : Nat)
    (below : isBelow fullPath.string.val item.path.string.val = true)
    {text : List UInt8} (formatted : text =
      newPrefix.string.val ++ item.path.string.val.drop fullPath.string.val.length) :
    (rewriteItem fullPath newPrefix newPath j item).item.wd = item.wd ∧
      (rewriteItem fullPath newPrefix newPath j item).item.path.string.val =
        text.take (pathMax - 1) ∧
      ((∃ newPath_,
          .truncated newPath_ ∈ (rewriteItem fullPath newPrefix newPath j item).messages) ↔
        pathMax < text.length) := by
  -- The path is below the old one, so the branch with strncpy() is taken.
  unfold rewriteItem
  rw [if_pos below, formatted]
  refine ⟨rfl, ?_, ?_⟩
  · simp only [StringBuffer.string_strncpy, StringBuffer.string_snprintf]
    rfl
  · simp [StringBuffer.snprintf, ByteString.append, ByteString.drop]

/-- Any other item is left alone. -/
theorem rewriteItem_of_not_below
    (apart : isBelow fullPath.string.val item.path.string.val ≠ true) :
    rewriteItem fullPath newPrefix newPath j item = ⟨item, []⟩ := by
  rw [rewriteItem, if_neg apart]

variable {old new rest : List UInt8}

/-- An item under the directory is rewritten silently if and only if it is not noticed. -/
theorem rewriteItem_notSilent_iff (under : item.Under old rest)
    (oldPath : fullPath.string.val = old.take (pathMax - 1))
    (newPath_ : newPrefix.string.val = new.take (pathMax - 1)) :
    (rewriteItem fullPath newPrefix newPath j item).NotSilent new rest ↔ Noticed new rest := by
  obtain ⟨below, path⟩ := under
  have short := item.path.length_string_lt
  rw [path, List.length_append] at short
  -- The old pathname is that of an item, or the beginning of one, so it is not cut off.
  have whole : fullPath.string.val = old := by
    rw [oldPath, List.take_of_length_le (by omega)]
  have matches_ : isBelow fullPath.string.val item.path.string.val = true :=
    isBelow_iff.mpr ⟨rest, below, by rw [whole, path]⟩
  have formatted : new.take (pathMax - 1) ++ rest =
      newPrefix.string.val ++ item.path.string.val.drop fullPath.string.val.length := by
    rw [newPath_, whole, path, List.drop_left]
  obtain ⟨-, written, message⟩ := rewriteItem_of_below newPath j matches_ formatted
  rw [ItemRewriting.NotSilent, written, message, Noticed]
  refine or_congr ⟨fun complete => ?_, fun fits => ?_⟩ ?_
  -- What is cut off is shorter than the whole, unless the whole fits.
  · have length := congrArg List.length complete
    simp only [List.length_take, List.length_append, pathMax] at length ⊢
    omega
  · have fits_ : new.length ≤ pathMax - 1 := by omega
    rw [List.take_of_length_le fits_, List.take_of_length_le]
    rw [List.length_append]
    omega
  · rw [List.length_append, List.length_take, Nat.min_comm]

end Item

section Call

variable (locals : Locals) (cache : List CacheItem)
  (oldPathPrefix oldName newPathPrefix newName : ByteString)

/-- The iteration for the item in a slot. -/
theorem getElem?_iterations (j : Nat) :
    (rewriteCachedArrays locals cache oldPathPrefix oldName newPathPrefix newName).iterations[j]? =
      cache[j]?.map (rewriteItem
        (StringBuffer.snprintf locals.fullPath (by decide) (joinStrings oldPathPrefix oldName)).1
        (StringBuffer.snprintf locals.newPrefix (by decide) (joinStrings newPathPrefix newName)).1
        (locals.newPath j) j) := by
  simp [rewriteCachedArrays, List.getElem?_map, List.getElem?_zipIdx, Option.map_map,
    Function.comp_def]

/-- What is promised for an item, if it is in a slot. -/
theorem exists_notSilent_iff {j : Nat} {item : CacheItem} (there : cache[j]? = some item)
    {rest : List UInt8} (under : item.Under (join oldPathPrefix.val oldName.val) rest) :
    (∃ iteration, (rewriteCachedArrays locals cache oldPathPrefix oldName newPathPrefix
        newName).iterations[j]? = some iteration ∧
          iteration.NotSilent (join newPathPrefix.val newName.val) rest) ↔
      Noticed (join newPathPrefix.val newName.val) rest := by
  -- The iteration of the item is the one with its index.
  rw [getElem?_iterations, there, Option.map_some]
  simp only [Option.some.injEq, exists_eq_left']
  exact rewriteItem_notSilent_iff under (by rw [StringBuffer.string_snprintf]; rfl)
    (by rw [StringBuffer.string_snprintf]; rfl)

/-- A call truncates no pathname silently, exactly when the new pathname of each is noticed. -/
theorem rewriteCachedArrays_neverSilent_iff :
    (rewriteCachedArrays locals cache oldPathPrefix oldName newPathPrefix newName).NeverSilent cache
        (join oldPathPrefix.val oldName.val) (join newPathPrefix.val newName.val) ↔
      ∀ item ∈ cache, ∀ rest, item.Under (join oldPathPrefix.val oldName.val) rest →
        Noticed (join newPathPrefix.val newName.val) rest := by
  -- Each item has its iteration, and what is said is said for each of them.
  constructor
  · intro never item mem rest under
    obtain ⟨j, there⟩ := List.getElem?_of_mem mem
    exact (exists_notSilent_iff locals cache _ _ _ _ there under).mp (never j item there rest under)
  · intro noticed j item there rest under
    exact (exists_notSilent_iff locals cache _ _ _ _ there under).mpr
      (noticed item (List.mem_of_getElem? there) rest under)

/-- Apart from the messages, the arrays hold what is computed with pathnames. -/
theorem rewriteCachedArrays_refines {j : Nat} {item : CacheItem} (there : cache[j]? = some item)
    {slot : Slot} (same : slot.path.val = item.path.string.val) :
    ((rewriteCachedArrays locals cache oldPathPrefix oldName newPathPrefix newName).cache[j]?.map
        fun item => item.path.string.val) =
      some (slot.rewrite oldPathPrefix.val oldName.val newPathPrefix.val newName.val).path.val := by
  rw [Rewriting.cache, List.getElem?_map, getElem?_iterations, there, Option.map_some,
    Option.map_some, Option.map_some, Option.some.injEq]
  -- Both look for the same beginning, and cut off the same end.
  have old : (StringBuffer.snprintf locals.fullPath (by decide)
      (joinStrings oldPathPrefix oldName)).1.string.val =
        (snprintf (join oldPathPrefix.val oldName.val)).val := by
    rw [StringBuffer.string_snprintf]
    rfl
  have new : (StringBuffer.snprintf locals.newPrefix (by decide)
      (joinStrings newPathPrefix newName)).1.string.val =
        (snprintf (join newPathPrefix.val newName.val)).val := by
    rw [StringBuffer.string_snprintf]
    rfl
  unfold Slot.rewrite
  simp only
  split
  next below =>
    rw [← old, same] at below
    rw [(rewriteItem_of_below _ _ below rfl).2.1, old, new, ← same]
    rfl
  next apart =>
    rw [← old, same] at apart
    rw [rewriteItem_of_not_below apart, same]

end Call

/-- A cache with the directory `/a/b/c`. -/
def oneItem : List CacheItem :=
  [⟨1, StringBuffer.ofString ⟨[47, 97, 47, 98, 47, 99], by decide⟩ (by decide)⟩]

/-- A pathname of 4092 bytes, in directories that are all called `a` apart from the last one. -/
theorem exists_longPrefix : ∃ pathPrefix : ByteString, pathPrefix.val.length = 4092 := by
  -- A path of names of one letter, and a last one of two.
  have parts : ∀ count, (List.replicate count [(97 : UInt8), 47]).flatten.length = count * 2 := by
    intro count
    simp
  refine ⟨⟨(List.replicate 2045 [97, 47]).flatten ++ [97, 97], ?_⟩, ?_⟩
  · refine List.not_mem_append (fun mem => ?_) (by decide)
    obtain ⟨part, among, inside⟩ := List.mem_flatten.mp mem
    rw [List.eq_of_mem_replicate among] at inside
    exact absurd inside (by decide)
  · rw [List.length_append, parts]
    rfl

/-- The new pathname of the item has 4096 bytes, the last of which is lost without a message. -/
theorem rewriteCachedArrays_not_neverSilent : ∃ locals cache oldPathPrefix oldName newPathPrefix
    newName, ¬ (rewriteCachedArrays locals cache oldPathPrefix oldName newPathPrefix
      newName).NeverSilent cache (join oldPathPrefix.val oldName.val)
        (join newPathPrefix.val newName.val) := by
  -- The directory `/a/b` becomes `b` in the long pathname.
  obtain ⟨longPrefix, length⟩ := exists_longPrefix
  have zeros : CharArray pathMax := ⟨List.replicate pathMax 0, List.length_replicate⟩
  refine ⟨⟨zeros, zeros, fun _ => zeros⟩, oneItem, ⟨[47, 97], by decide⟩, ⟨[98], by decide⟩,
    longPrefix, ⟨[98], by decide⟩, fun never => ?_⟩
  have under : CacheItem.Under ⟨1, StringBuffer.ofString ⟨[47, 97, 47, 98, 47, 99], by decide⟩
      (by decide)⟩ (join [47, 97] [98]) [47, 99] :=
    ⟨.inr ⟨[99], rfl⟩, by rw [StringBuffer.string_ofString]; rfl⟩
  have noticed := (exists_notSilent_iff _ oneItem _ _ _ _ (j := 0) rfl under).mp
    (never 0 _ rfl [47, 99] under)
  refine not_noticed ?_ noticed
  simp only [join, List.length_append, List.length_cons, List.length_nil, length, pathMax]

end SysProg.Inotify
