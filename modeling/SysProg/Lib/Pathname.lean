import Mathlib.Tactic

/-! Pathnames and their lexical normal forms, and how to tell where a pathname ends up. -/

namespace SysProg.Pathname

/-- The byte between the components of a pathname. -/
def slash : UInt8 := 47

/-- A component that stands for the directory itself. -/
def dot : List UInt8 := [46]

/-- A component that stands for the directory above. -/
def dotDot : List UInt8 := [46, 46]

/-- The components of a pathname, where repeated slashes have empty ones between them. -/
def components (pathname : List UInt8) : List (List UInt8) :=
  pathname.splitOn slash

/-- Going to a component, from a directory given by its names with the innermost first. -/
def enter (directory : List (List UInt8)) (component : List UInt8) : List (List UInt8) :=
  if component = [] ∨ component = dot then directory
  else if component = dotDot then directory.tail
  else component :: directory

/-- The directory that an absolute pathname stands for, where no symbolic link is involved. -/
def normalise (pathname : List UInt8) : List (List UInt8) :=
  (components pathname).foldl enter []

/-- A directory that has this one as one of its parents, and is not it. -/
def ProperDescendant (parent directory : List (List UInt8)) : Prop :=
  parent <:+ directory ∧ parent ≠ directory

instance (parent directory : List (List UInt8)) : Decidable (ProperDescendant parent directory) :=
  inferInstanceAs (Decidable (_ ∧ _))

/-- Where a walk is with respect to a directory of the root. -/
inductive Place where
  /-- In the directory, or so many levels below it. -/
  | below (levels : Nat)
  /-- Elsewhere, so many levels below the root. -/
  | outside (levels : Nat)
  deriving DecidableEq, Repr

/-- The place is at least one level below the directory. -/
def Place.IsBelow : Place → Prop
  | .below (_ + 1) => True
  | _ => False

instance : ∀ place : Place, Decidable place.IsBelow
  | .below (_ + 1) => isTrue trivial
  | .below 0 | .outside _ => isFalse fun below => below

/-- The place after one more component, where nothing but the levels is counted. -/
def Place.enter (top : List UInt8) (place : Place) (component : List UInt8) : Place :=
  if component = [] ∨ component = dot then place
  else if component = dotDot then
    match place with
    | .below 0 => .outside 0
    | .below (levels + 1) => .below levels
    | .outside levels => .outside (levels - 1)
  else
    match place with
    | .below levels => .below (levels + 1)
    | .outside 0 => if component = top then .below 0 else .outside 1
    | .outside (levels + 1) => .outside (levels + 2)

/-- Where a walk along a pathname ends that starts at this place. -/
def walkFrom (top : List UInt8) (place : Place) (pathname : List UInt8) : Place :=
  (components pathname).foldl (Place.enter top) place

/-- Where a walk along a pathname ends. -/
def walk (top pathname : List UInt8) : Place :=
  walkFrom top (.outside 0) pathname

/-- A walk goes along the first component, and then along what is behind the slash. -/
theorem walkFrom_append {component : List UInt8} (whole : slash ∉ component) (top : List UInt8)
    (place : Place) (rest : List UInt8) :
    walkFrom top place (component ++ slash :: rest) =
      walkFrom top (place.enter top component) rest := by
  -- The first slash ends the first component, and the others are those of the rest.
  have split : components (component ++ slash :: rest) = component :: components rest :=
    List.splitOn_append_cons_self_of_not_mem whole rest
  rw [walkFrom, split, List.foldl_cons, walkFrom]

/-- The place is that of this directory. -/
def Place.Is (top : List UInt8) (directory : List (List UInt8)) : Place → Prop
  | .below levels => ∃ names, names.length = levels ∧ directory = names ++ [top]
  | .outside levels => directory.length = levels ∧ ∀ last ∈ directory.getLast?, last ≠ top

/-- Counting levels keeps up with the directories that are entered. -/
theorem Place.Is.enter {top : List UInt8} {directory : List (List UInt8)} {place : Place}
    (is_ : place.Is top directory) (component : List UInt8) :
    (place.enter top component).Is top (Pathname.enter directory component) := by
  unfold Place.enter Pathname.enter
  by_cases same : component = [] ∨ component = dot
  · rw [if_pos same, if_pos same]
    exact is_
  rw [if_neg same, if_neg same]
  by_cases up : component = dotDot
  · -- The directory above: its levels are one less, down to the root.
    rw [if_pos up, if_pos up]
    match place, is_ with
    | .below 0, is_ =>
      obtain ⟨names, none, rfl⟩ := is_
      obtain rfl := List.length_eq_zero_iff.mp none
      exact ⟨rfl, by simp⟩
    | .below (levels + 1), is_ =>
      obtain ⟨names, more, rfl⟩ := is_
      obtain ⟨first, rest, rfl⟩ := List.exists_cons_of_length_eq_add_one more
      exact ⟨rest, Nat.succ_injective more, rfl⟩
    | .outside levels, is_ =>
      obtain ⟨rfl, other⟩ := is_
      refine ⟨List.length_tail, fun last found => other last ?_⟩
      cases directory with
      | nil => exact found
      | cons first rest =>
        cases rest with
        | nil => exact nomatch found
        | cons second rest => exact found
  · -- A name: one more level, and only the first one can be the directory itself.
    rw [if_neg up, if_neg up]
    match place, is_ with
    | .below levels, is_ =>
      obtain ⟨names, rfl, rfl⟩ := is_
      exact ⟨component :: names, rfl, rfl⟩
    | .outside 0, is_ =>
      obtain ⟨none, -⟩ := is_
      obtain rfl := List.length_eq_zero_iff.mp none
      by_cases found : component = top
      · simp only [if_pos found]
        exact ⟨[], rfl, by rw [found]; rfl⟩
      · simp only [if_neg found]
        exact ⟨rfl, by simpa using found⟩
    | .outside (levels + 1), is_ =>
      obtain ⟨more, other⟩ := is_
      obtain ⟨first, rest, rfl⟩ := List.exists_cons_of_length_eq_add_one more
      refine ⟨by simpa using more, fun last found => other last ?_⟩
      rwa [List.getLast?_cons_cons] at found

/-- Counting levels keeps up with the whole pathname. -/
theorem walk_is (top pathname : List UInt8) : (walk top pathname).Is top (normalise pathname) := by
  have steps : ∀ (rest : List (List UInt8)) (place : Place) (directory : List (List UInt8)),
      place.Is top directory →
      (rest.foldl (Place.enter top) place).Is top (rest.foldl enter directory) := by
    intro rest
    -- The induction takes the components in the order of the walk.
    induction rest with
    | nil => exact fun _ _ is_ => is_
    | cons component rest ih => exact fun _ _ is_ => ih _ _ (is_.enter component)
  exact steps _ _ _ ⟨rfl, by simp⟩

/-- A pathname leads below a directory exactly when its walk ends at least one level below it. -/
theorem properDescendant_iff (top pathname : List UInt8) :
    ProperDescendant [top] (normalise pathname) ↔ (walk top pathname).IsBelow := by
  have is_ := walk_is top pathname
  unfold ProperDescendant
  -- The walk ends below the directory, or outside of it.
  cases walked : walk top pathname with
  | below levels =>
    rw [walked] at is_
    obtain ⟨names, rfl, reached⟩ := is_
    rw [reached]
    cases names with
    | nil => simp [Place.IsBelow]
    | cons first rest => simp [Place.IsBelow]
  | outside levels =>
    rw [walked] at is_
    refine ⟨fun ⟨⟨names, reached⟩, _⟩ => ?_, fun below => below.elim⟩
    rw [← reached] at is_
    exact absurd rfl (is_.2 top (by simp))

end SysProg.Pathname
