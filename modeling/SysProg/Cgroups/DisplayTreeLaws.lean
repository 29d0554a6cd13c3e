import SysProg.Cgroups.DisplayTree

/-! The level of a directory is its depth below the root, unless the root is `/` or `.`. -/

namespace SysProg.Cgroups

open SysProg.Filepath (Normal render)
open SysProg.Pathname (slash dot)

/-- What is promised of the way in which a directory is shown. -/
structure ShownAtDepth (path : List UInt8) (names : List FileName) (heading : Heading) : Prop where
  /-- The level, which is not negative, is the number of components from the root on. -/
  level : heading.level = names.length
  indent : heading.indent = List.replicate (4 * names.length) blank
  /-- Only the root is shown with its full pathname. -/
  displayPath : heading.displayPath =
    (names.getLast?.map Subtype.val).getD (Filepath.clean path)

/-- Names that are walked along are added to the components of a clean pathname. -/
theorem walkPath_render {rooted : Bool} {parts : List (List UInt8)} (normal : Normal rooted parts)
    (names : List FileName) :
    Normal rooted ((names.map Subtype.val).reverse ++ parts) ∧
      walkPath (render rooted parts) names =
        render rooted ((names.map Subtype.val).reverse ++ parts) := by
  -- The induction goes one name further at each step.
  induction names generalizing parts with
  | nil => exact ⟨normal, rfl⟩
  | cons name names ih =>
    obtain ⟨longer, walked⟩ := ih (.name name.property normal)
    rw [List.map_cons, List.reverse_cons, List.append_assoc, List.singleton_append]
    refine ⟨longer, ?_⟩
    rw [← walked, walkPath, List.foldl_cons, normal.join name.property]
    rfl

/-- The level, where a root without components counts as if it had one. -/
theorem splitCnt_walkPath {rooted : Bool} {parts : List (List UInt8)}
    (normal : Normal rooted parts) (names : List FileName) :
    splitCnt (walkPath (render rooted parts) names) - splitCnt (render rooted parts) =
      (max 1 (names.length + parts.length) : Nat) - (max 1 parts.length : Nat) := by
  -- The walk makes the path longer by its names, and slashes are counted between components.
  obtain ⟨longer, walked⟩ := walkPath_render normal names
  rw [walked, splitCnt, splitCnt, longer.length_components, normal.length_components]
  simp only [List.length_append, List.length_reverse, List.length_map]
  push_cast
  ring

/-- The last of the names is the basename of the pathname. -/
theorem base_walkPath {rooted : Bool} {parts : List (List UInt8)} (normal : Normal rooted parts)
    (names : List FileName) (last : FileName) :
    Filepath.base (walkPath (render rooted parts) (names ++ [last])) = last.val := by
  rw [(walkPath_render normal _).2, List.map_append, List.reverse_append]
  exact (walkPath_render normal names).1.base_render last.property

/-- How every directory is shown: the root counts as a component, even if it has none. -/
theorem displayDirTree_eq {path : List UInt8} {rooted : Bool} {parts : List (List UInt8)}
    (normal : Normal rooted parts) (clean : Filepath.clean path = render rooted parts)
    (names : List FileName) :
    ∃ level : Nat, level + max 1 parts.length = max 1 (names.length + parts.length) ∧
      displayDirTree path names = some
        { level := level
          indent := List.replicate (4 * level) blank
          displayPath := if 0 < level then Filepath.base (walkPath (render rooted parts) names)
            else walkPath (render rooted parts) names } := by
  -- The pathname of a directory has at least as many components as that of the root.
  obtain ⟨level, more⟩ : ∃ level, max 1 (names.length + parts.length) =
      max 1 parts.length + level := Nat.exists_eq_add_of_le (by omega)
  refine ⟨level, by omega, ?_⟩
  have same : splitCnt (walkPath (render rooted parts) names) - splitCnt (render rooted parts) =
      level := by
    rw [splitCnt_walkPath normal, more]
    push_cast
    ring
  have repeated : stringsRepeat [blank] (4 * (level : Int)) =
      some (List.replicate (4 * level) blank) := by
    have count : (4 * (level : Int)).toNat = 4 * level := by omega
    rw [stringsRepeat, if_neg (by omega), count, List.flatten_replicate_singleton]
  simp only [displayDirTree, displayCgroup, clean, same, repeated, Option.map_some]
  simp

/-- The indent is never asked to be repeated a negative number of times. -/
theorem displayDirTree_isSome (path : List UInt8) (names : List FileName) :
    (displayDirTree path names).isSome := by
  obtain ⟨rooted, parts, normal, clean⟩ := Filepath.exists_normal path
  -- Every directory is shown at some level.
  obtain ⟨level, -, shown⟩ := displayDirTree_eq normal clean names
  rw [shown]
  rfl

/-- Every directory is shown at its depth, unless it is below one of two special roots. -/
theorem displayDirTree_shownAtDepth_iff (path : List UInt8) (names : List FileName) :
    (∃ heading, displayDirTree path names = some heading ∧ ShownAtDepth path names heading) ↔
      names = [] ∨ (Filepath.clean path ≠ [slash] ∧ Filepath.clean path ≠ dot) := by
  obtain ⟨rooted, parts, normal, clean⟩ := Filepath.exists_normal path
  obtain ⟨level, counted, shown⟩ := displayDirTree_eq normal clean names
  rw [shown, clean, ← not_or, ← normal.eq_nil_iff]
  constructor
  · rintro ⟨heading, same, right⟩
    obtain rfl := Option.some.inj same
    have depth : (level : Int) = names.length := right.level
    by_contra neither
    obtain ⟨some_, nothing⟩ := not_or.mp neither
    -- Below a root without components, the level is one less.
    obtain rfl := not_not.mp nothing
    have deeper := List.length_pos_of_ne_nil some_
    simp only [List.length_nil, Nat.add_zero] at counted
    omega
  · intro fits
    have depth : level = names.length := by
      rcases fits with rfl | some_
      · simpa using counted
      · have more := List.length_pos_of_ne_nil some_
        omega
    refine ⟨_, rfl, by simp [depth], by simp [depth], ?_⟩
    rw [clean]
    -- The root is shown with its pathname, and another directory with the last name.
    rcases List.eq_nil_or_concat names with rfl | ⟨front, last, rfl⟩
    · simp [depth, walkPath]
    · have deeper : 0 < level := by simp [depth]
      simp [deeper, base_walkPath normal]

/-- Below the root directory itself, every directory is shown one level too far to the left. -/
theorem displayDirTree_not_shownAtDepth :
    ∃ path names, ¬ ∃ heading, displayDirTree path names = some heading ∧
      ShownAtDepth path names heading := by
  -- The root `/`, with a directory `/a` in it.
  refine ⟨[47], [⟨[97], by decide⟩], ?_⟩
  rintro ⟨heading, shown, right⟩
  have flat : displayDirTree [47] [⟨[97], by decide⟩] = some ⟨0, [], [47, 97]⟩ := by decide
  obtain rfl := Option.some.inj (flat.symm.trans shown)
  exact absurd right.level (by decide)

end SysProg.Cgroups
