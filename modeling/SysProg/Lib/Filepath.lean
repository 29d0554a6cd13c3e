import Mathlib.Data.List.DropRight
import SysProg.Lib.Pathname
import SysProg.Lib.Strings

/-! Cleaning, joining and shortening pathnames, as the package `filepath` of Go does. -/

namespace SysProg.Filepath

open SysProg.Pathname (slash dot dotDot components)

/-- Going to a component of a pathname, of which the last component so far is the first here. -/
def enter (rooted : Bool) (parts : List (List UInt8)) (component : List UInt8) :
    List (List UInt8) :=
  if component = [] ∨ component = dot then parts
  else if component = dotDot then
    match parts with
    -- There is nothing above the root.
    | [] => if rooted then [] else [dotDot]
    | last :: before => if last = dotDot then dotDot :: last :: before else before
  else component :: parts

/-- The pathname with these components, where the last one comes first. -/
def render (rooted : Bool) (parts : List (List UInt8)) : List UInt8 :=
  let body := [slash].intercalate parts.reverse
  if rooted then slash :: body else if parts = [] then dot else body

/-- Whether a pathname begins with a slash. -/
def isRooted (path : List UInt8) : Bool :=
  path.head? = some slash

/-- `filepath.Clean`: the shortest pathname that is equivalent by lexical processing. -/
def clean (path : List UInt8) : List UInt8 :=
  render (isRooted path) ((components path).foldl (enter (isRooted path)) [])

/-- `filepath.Join` of two elements, the first of which is ignored if it is empty. -/
def join (dir name : List UInt8) : List UInt8 :=
  if dir ≠ [] then clean (dir ++ slash :: name) else if name ≠ [] then clean name else []

/-- `filepath.Base`: the last element of a pathname. -/
def base (path : List UInt8) : List UInt8 :=
  if path = [] then dot
  else
    let last := (path.rdropWhile (· = slash)).rtakeWhile (· ≠ slash)
    if last = [] then [slash] else last

/-- A component that stands for a file in the directory before it. -/
def IsName (component : List UInt8) : Prop :=
  component ≠ [] ∧ component ≠ dot ∧ component ≠ dotDot ∧ slash ∉ component

instance : DecidablePred IsName := fun _ => inferInstanceAs (Decidable (_ ∧ _))

/-- The components of a clean pathname: names, and before them the way up if there is one. -/
inductive Normal (rooted : Bool) : List (List UInt8) → Prop where
  | nil : Normal rooted []
  | up {parts : List (List UInt8)} (relative : rooted = false)
      (before : ∀ part ∈ parts, part = dotDot) (normal : Normal rooted parts) :
      Normal rooted (dotDot :: parts)
  | name {name : List UInt8} {parts : List (List UInt8)} (isName : IsName name)
      (normal : Normal rooted parts) : Normal rooted (name :: parts)

/-- A name is added. -/
theorem enter_name {rooted : Bool} {name : List UInt8} (isName : IsName name)
    (parts : List (List UInt8)) : enter rooted parts name = name :: parts := by
  obtain ⟨nonempty, notDot, notDotDot, -⟩ := isName
  rw [enter.eq_def, if_neg (not_or.mpr ⟨nonempty, notDot⟩), if_neg notDotDot]

/-- Going to a component keeps a pathname clean. -/
theorem Normal.enter {rooted : Bool} {parts : List (List UInt8)} (normal : Normal rooted parts)
    {component : List UInt8} (noSlash : slash ∉ component) :
    Normal rooted (enter rooted parts component) := by
  unfold Filepath.enter
  split
  next => exact normal
  next other =>
    obtain ⟨nonempty, notDot⟩ := not_or.mp other
    split
    next =>
      -- The way up takes the last name away, or gets longer where there is none.
      cases normal with
      | nil =>
        cases rooted with
        | false => exact .up rfl (by simp) .nil
        | true => exact .nil
      | up relative before normal =>
        dsimp only
        rw [if_pos rfl]
        exact .up relative (by simpa using before) (.up relative before normal)
      | name isName normal =>
        dsimp only
        rw [if_neg isName.2.2.1]
        exact normal
    next notDotDot => exact .name ⟨nonempty, notDot, notDotDot, noSlash⟩ normal

/-- The components of a clean pathname stay as they are when it is cleaned. -/
theorem Normal.foldl_enter {rooted : Bool} {parts : List (List UInt8)}
    (normal : Normal rooted parts) : parts.reverse.foldl (Filepath.enter rooted) [] = parts := by
  -- The induction takes the last component off.
  induction normal with
  | nil => rfl
  | up relative before normal ih =>
    rw [List.reverse_cons, List.foldl_append, ih, List.foldl_cons, List.foldl_nil,
      Filepath.enter.eq_def, if_neg (by decide), if_pos rfl]
    subst relative
    split
    next => rfl
    next last parts => rw [if_pos (before last List.mem_cons_self)]
  | name isName normal ih =>
    rw [List.reverse_cons, List.foldl_append, ih, List.foldl_cons, List.foldl_nil,
      enter_name isName]

/-- No component of a clean pathname is empty or the dot, or has a slash in it. -/
theorem Normal.parts {rooted : Bool} {parts : List (List UInt8)} (normal : Normal rooted parts) :
    ∀ part ∈ parts, part ≠ [] ∧ part ≠ dot ∧ slash ∉ part := by
  -- By induction on the parts of the normal path.
  induction normal with
  | nil => exact nofun
  | up _ _ _ ih => exact List.forall_mem_cons.mpr ⟨by decide, ih⟩
  | name isName _ ih =>
    exact List.forall_mem_cons.mpr ⟨⟨isName.1, isName.2.1, isName.2.2.2⟩, ih⟩

/-- The components of any pathname lead to those of a clean one. -/
theorem normal_foldl (rooted : Bool) (path : List UInt8) :
    Normal rooted ((components path).foldl (enter rooted) []) := by
  -- Each component keeps the path normal.
  have steps : ∀ (rest parts : List (List UInt8)), (∀ part ∈ rest, slash ∉ part) →
      Normal rooted parts → Normal rooted (rest.foldl (enter rooted) parts) := by
    intro rest
    induction rest with
    | nil => exact fun _ _ normal => normal
    | cons part rest ih =>
      intro parts noSlash normal
      obtain ⟨here, later⟩ := List.forall_mem_cons.mp noSlash
      exact ih _ later (normal.enter here)
  exact steps _ _ (fun _ mem => Strings.notMem_of_mem_splitOn mem) .nil

/-- Cleaning leads to a clean pathname. -/
theorem exists_normal (path : List UInt8) :
    ∃ rooted parts, Normal rooted parts ∧ clean path = render rooted parts :=
  ⟨_, _, normal_foldl _ path, rfl⟩

/-- The components of a clean pathname: the root has two, and the working directory has one. -/
theorem Normal.components_render {rooted : Bool} {parts : List (List UInt8)}
    (normal : Normal rooted parts) : components (render rooted parts) =
      if rooted then [] :: (if parts = [] then [[]] else parts.reverse)
      else if parts = [] then [dot] else parts.reverse := by
  -- No part has a slash in it, so splitting the path gives the parts back.
  have noSlash : ∀ part ∈ parts.reverse, slash ∉ part := fun part mem =>
    (normal.parts part (List.mem_reverse.mp mem)).2.2
  cases rooted with
  | false =>
    simp only [render, Bool.false_eq_true, if_false]
    split
    next => rfl
    next some_ => exact List.splitOn_intercalate slash noSlash (by simpa using some_)
  | true =>
    simp only [render, if_true]
    -- A rooted path has an empty component in front.
    have first : components (slash :: [slash].intercalate parts.reverse) =
        [] :: components ([slash].intercalate parts.reverse) :=
      List.splitOn_append_cons_self [] _
    rw [first]
    split
    next nothing =>
      subst nothing
      rfl
    next some_ =>
      exact congrArg _ (List.splitOn_intercalate slash noSlash (by simpa using some_))

/-- A clean pathname begins with a slash only if it begins at the root. -/
theorem Normal.isRooted_render {rooted : Bool} {parts : List (List UInt8)}
    (normal : Normal rooted parts) (rest : List UInt8) :
    isRooted (render rooted parts ++ rest) = rooted := by
  cases rooted with
  | true => rfl
  | false =>
    simp only [render, Bool.false_eq_true, if_false]
    split
    next => rfl
    next some_ =>
      -- The first byte is the first one of a component.
      obtain ⟨part, more, same⟩ := List.exists_cons_of_ne_nil
        (List.reverse_eq_nil_iff.not.mpr some_)
      have mem : part ∈ parts := List.mem_reverse.mp (same ▸ List.mem_cons_self)
      obtain ⟨nonempty, -, noSlash⟩ := normal.parts part mem
      obtain ⟨first, others, rfl⟩ := List.exists_cons_of_ne_nil nonempty
      have other : first ≠ slash := by
        rintro rfl
        exact noSlash List.mem_cons_self
      rw [same]
      cases more <;> simp [isRooted, List.intercalate_cons_cons, other]

/-- A clean pathname with a name behind it is the clean pathname with one more component. -/
theorem Normal.clean_append {rooted : Bool} {parts : List (List UInt8)}
    (normal : Normal rooted parts) {name : List UInt8} (isName : IsName name) :
    clean (render rooted parts ++ slash :: name) = render rooted (name :: parts) := by
  have split_ : components (render rooted parts ++ slash :: name) =
      components (render rooted parts) ++ [name] := by
    rw [components, List.splitOn_append_cons_self, List.splitOn_eq_singleton isName.2.2.2]
    rfl
  -- Empty components and the dot do not count.
  have same : (components (render rooted parts)).foldl (Filepath.enter rooted) [] = parts := by
    rw [normal.components_render]
    cases rooted with
    | true =>
      rw [if_pos rfl, List.foldl_cons]
      split
      next nothing =>
        subst nothing
        rfl
      next => exact normal.foldl_enter
    | false =>
      rw [if_neg (by decide)]
      split
      next nothing =>
        subst nothing
        rfl
      next => exact normal.foldl_enter
  rw [clean, normal.isRooted_render, split_, List.foldl_append, same, List.foldl_cons,
    List.foldl_nil, enter_name isName]

/-- No clean pathname is empty. -/
theorem Normal.render_ne_nil {rooted : Bool} {parts : List (List UInt8)}
    (normal : Normal rooted parts) : render rooted parts ≠ [] := by
  intro nothing
  have one := normal.components_render
  rw [nothing] at one
  cases rooted with
  | true => simp [render] at nothing
  | false =>
    simp only [components, List.splitOn_nil, Bool.false_eq_true, if_false] at one
    split at one
    next => simp [dot] at one
    next =>
      -- The only component would be empty.
      have empty : [] ∈ parts := List.mem_reverse.mp (one ▸ List.mem_cons_self)
      exact (normal.parts [] empty).1 rfl

/-- Joining a clean pathname and a name. -/
theorem Normal.join {rooted : Bool} {parts : List (List UInt8)} (normal : Normal rooted parts)
    {name : List UInt8} (isName : IsName name) :
    join (render rooted parts) name = render rooted (name :: parts) := by
  rw [Filepath.join, if_pos normal.render_ne_nil, normal.clean_append isName]

/-- The last element of a pathname that is a name, or ends with a slash and a name. -/
theorem base_eq {name front : List UInt8} (isName : IsName name)
    (ends : front = [] ∨ ∃ dir, front = dir ++ [slash]) : base (front ++ name) = name := by
  obtain ⟨nonempty, -, -, noSlash⟩ := isName
  have other : ∀ byte ∈ name, (decide (byte ≠ slash)) = true := fun byte mem =>
    decide_eq_true fun same => noSlash (same ▸ mem)
  -- The last byte is not a slash, so nothing is stripped.
  have whole : (front ++ name).rdropWhile (· = slash) = front ++ name := by
    refine List.rdropWhile_eq_self_iff.mpr fun some_ => ?_
    rw [List.getLast_append_of_ne_nil some_ nonempty]
    simpa using other _ (List.getLast_mem nonempty)
  have last : (front ++ name).rtakeWhile (· ≠ slash) = name := by
    rw [List.rtakeWhile, List.reverse_append, List.takeWhile_append_of_pos
      fun byte mem => other byte (List.mem_reverse.mp mem)]
    rcases ends with rfl | ⟨dir, rfl⟩ <;> simp
  rw [base, if_neg (by simp [nonempty])]
  simp only [whole, last, if_neg nonempty]

/-- A name is the last element of the clean pathname that it is added to. -/
theorem Normal.base_render {rooted : Bool} {parts : List (List UInt8)}
    (normal : Normal rooted parts) {name : List UInt8} (isName : IsName name) :
    base (render rooted (name :: parts)) = name := by
  have normal_ : Normal rooted (name :: parts) := .name isName normal
  -- The last component, and what is before it.
  have front : ∃ front, render rooted (name :: parts) = front ++ name ∧
      (front = [] ∨ ∃ dir, front = dir ++ [slash]) := by
    by_cases nothing : parts = []
    · subst nothing
      cases rooted with
      | true => exact ⟨[slash], by simp [render], .inr ⟨[], rfl⟩⟩
      | false => exact ⟨[], by simp [render], .inl rfl⟩
    · have noSlash : ∀ part ∈ parts.reverse, slash ∉ part := fun part mem =>
        (normal.parts part (List.mem_reverse.mp mem)).2.2
      have body : [slash].intercalate (parts.reverse ++ [name]) =
          [slash].intercalate parts.reverse ++ slash :: name := by
        have split_ : ([slash].intercalate parts.reverse ++ slash :: name).splitOn slash =
            parts.reverse ++ [name] := by
          rw [List.splitOn_append_cons_self, List.splitOn_eq_singleton isName.2.2.2,
            List.splitOn_intercalate slash noSlash (by simpa using nothing)]
        rw [← split_, List.intercalate_splitOn]
      refine ⟨(if rooted then [slash] else []) ++ [slash].intercalate parts.reverse ++ [slash], ?_,
        .inr ⟨_, rfl⟩⟩
      cases rooted <;> simp [render, body]
  obtain ⟨front, same, ends⟩ := front
  rw [same, base_eq isName ends]

/-- The root has two components, and the working directory has one. -/
theorem Normal.length_components {rooted : Bool} {parts : List (List UInt8)}
    (normal : Normal rooted parts) :
    (components (render rooted parts)).length = rooted.toNat + max 1 parts.length := by
  rw [normal.components_render]
  -- An empty path is written as one component.
  by_cases nothing : parts = []
  · subst nothing
    cases rooted <;> rfl
  · have some_ := List.length_pos_of_ne_nil nothing
    cases rooted <;> simp [nothing] <;> omega

/-- A clean pathname without a component is that of the root or of the working directory. -/
theorem Normal.eq_nil_iff {rooted : Bool} {parts : List (List UInt8)}
    (normal : Normal rooted parts) :
    parts = [] ↔ render rooted parts = [slash] ∨ render rooted parts = dot := by
  constructor
  · rintro rfl
    cases rooted with
    | true => exact .inl rfl
    | false => exact .inr rfl
  · intro special
    by_contra some_
    have split_ := normal.components_render
    rw [if_neg some_, if_neg some_] at split_
    -- A component would be empty, or the dot.
    have absurd_ : [] ∈ parts ∨ dot ∈ parts := by
      rcases special with root | working
      · rw [root] at split_
        cases rooted with
        | true =>
          have one : [[]] = parts.reverse := List.tail_eq_of_cons_eq split_
          exact .inl (List.mem_reverse.mp (one ▸ List.mem_cons_self))
        | false =>
          have two : [[], []] = parts.reverse := split_
          exact .inl (List.mem_reverse.mp (two ▸ List.mem_cons_self))
      · rw [working] at split_
        cases rooted with
        | true => exact absurd (List.head_eq_of_cons_eq split_) (by decide)
        | false =>
          have one : [dot] = parts.reverse := split_
          exact .inr (List.mem_reverse.mp (one ▸ List.mem_cons_self))
    rcases absurd_ with empty | dot_
    · exact (normal.parts [] empty).1 rfl
    · exact (normal.parts dot dot_).2.1 rfl

end SysProg.Filepath
