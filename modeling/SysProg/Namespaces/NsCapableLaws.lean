import SysProg.Namespaces.NsCapable

/-! What the search for an ancestor namespace finds, and what it leaves open. -/

namespace SysProg.Namespaces.NsCapable

open Descriptors

variable {Ns : Type*} {kernel : Kernel Ns}

/-- A namespace is an ancestor of another one. -/
def ProperAncestor (kernel : Kernel Ns) (above below : Ns) : Prop :=
  above ≠ below ∧ kernel.Above above below

/-- A namespace is the child of the first one on the chain to the second one. -/
def ChildTowards (kernel : Kernel Ns) (above below child : Ns) : Prop :=
  kernel.parent child = some above ∧ kernel.Above child below

/-- The descriptors that the caller has, two of which refer to the source and the target. -/
structure Caller (Ns : Type*) where
  table : List (Nat × Ns)
  nodup : (table.map Prod.fst).Nodup
  sourceUserns : Nat
  targetUserns : Nat
  source : Ns
  target : Ns
  sourceOpen : table.lookup sourceUserns = some source
  targetOpen : table.lookup targetUserns = some target

/-- What the function is to return, and which descriptors it is to leave open. -/
structure Finds (kernel : Kernel Ns) (caller : Caller Ns) (value : Int)
    (fds : Descriptors Ns) : Prop where
  none_iff : value = -1 ↔ ¬ ProperAncestor kernel caller.source caller.target
  /-- Otherwise there is the right descriptor, which is the one of the caller if it can be. -/
  child : ProperAncestor kernel caller.source caller.target →
    ∃ (fd : Nat) (child : Ns), value = fd ∧ fds.object fd = some child ∧
      ChildTowards kernel caller.source caller.target child ∧
      (child = caller.target → fd = caller.targetUserns)
  /-- Everything else has been closed, and nothing that the caller has. -/
  closed : ∃ kept, Since caller.table fds kept ∧ ∀ entry ∈ kept, (entry.1 : Int) = value

/-- The ancestors are those that have a child on the chain. -/
theorem properAncestor_iff {above below : Ns} :
    ProperAncestor kernel above below ↔ ∃ child, ChildTowards kernel above below child := by
  rw [ProperAncestor, Ancestry.above_iff_child]
  -- A proper ancestor is the parent of somebody on the way up.
  constructor
  · rintro ⟨other, same | child⟩
    · exact absurd same other
    · exact child
  · rintro ⟨child, parent, higher⟩
    refine ⟨?_, .inr ⟨child, parent, higher⟩⟩
    rintro rfl
    exact Ancestry.not_above_parent parent higher

/-- The ancestors of a namespace are its parent and the ancestors of that one. -/
theorem properAncestor_of_parent {source ns above : Ns} (found : kernel.parent ns = some above) :
    ProperAncestor kernel source ns ↔ source = above ∨ ProperAncestor kernel source above := by
  -- An ancestor is the parent itself or further up.
  rw [ProperAncestor, ProperAncestor, Ancestry.above_of_parent found]
  constructor
  · rintro ⟨other, same | higher⟩
    · exact absurd same other
    · exact or_iff_not_imp_left.mpr fun different => ⟨different, higher⟩
  · rintro (rfl | ⟨-, higher⟩)
    · refine ⟨?_, .inr (Ancestry.above_self _)⟩
      rintro rfl
      exact Ancestry.not_above_parent found (Ancestry.above_self _)
    · refine ⟨?_, .inr higher⟩
      rintro rfl
      exact Ancestry.not_above_parent found higher

/-- A namespace without a parent has no ancestors. -/
theorem not_properAncestor_of_top {source ns : Ns} (top : kernel.parent ns = none) :
    ¬ ProperAncestor kernel source ns :=
  fun proper => proper.1 ((Ancestry.above_of_top top).mp proper.2)

variable (caller : Caller Ns)

/-- Where the walk stands: at the target, or at a descriptor of its own for an ancestor of it. -/
structure At (child : Nat) (ns : Ns) (fds : Descriptors Ns) (kept : List (Nat × Ns)) : Prop where
  since : Since caller.table fds kept
  place : child = caller.targetUserns ∧ ns = caller.target ∧ kept = [] ∨
    child ∉ caller.table.map Prod.fst ∧ ns ≠ caller.target ∧ kept = [(child, ns)]

variable {caller} {child : Nat} {ns : Ns} {fds : Descriptors Ns} {kept : List (Nat × Ns)}

/-- The descriptor refers to the namespace. -/
theorem At.object (here : At caller child ns fds kept) : fds.object child = some ns := by
  -- The descriptor is the caller's own, or the one opened last.
  obtain ⟨rfl, rfl, rfl⟩ | ⟨-, -, rfl⟩ := here.place
  · rw [here.since.object (mem_of_lookup caller.targetOpen), caller.targetOpen]
  · rw [Descriptors.object, here.since.table]
    exact List.lookup_cons_self

/-- A descriptor of the walk is not the one of the caller. -/
theorem At.eq_target_iff (here : At caller child ns fds kept) :
    child = caller.targetUserns ↔ kept = [] := by
  -- At the start the descriptor is the caller's; later it is one that was opened since.
  obtain ⟨rfl, -, rfl⟩ | ⟨own, -, rfl⟩ := here.place
  · exact iff_of_true rfl rfl
  · refine iff_of_false ?_ (List.cons_ne_nil _ _)
    rintro rfl
    exact own (mem_of_lookup caller.targetOpen)

/-- The descriptor of the walk can be closed when it goes on. -/
theorem At.close (here : At caller child ns fds kept) (own : child ≠ caller.targetUserns)
    (front : List (Nat × Ns)) {later : Descriptors Ns}
    (since : Since caller.table later (front ++ kept)) :
    ∃ after, later.close child = some after ∧ Since caller.table after front := by
  -- What is closed is the descriptor opened last.
  obtain ⟨same, -, -⟩ | ⟨-, -, rfl⟩ := here.place
  · exact absurd same own
  · obtain ⟨after, closed, left⟩ := since.close
    exact ⟨after, closed, by rwa [List.append_nil] at left⟩

/-- The parent of a namespace is not the target when the namespace is on the way to it. -/
theorem ne_target_of_parent {above : Ns} (found : kernel.parent ns = some above)
    (onWay : kernel.Above ns caller.target) : above ≠ caller.target := by
  rintro rfl
  exact Ancestry.not_above_parent found onWay

/-- The walk finds what it should from every place on the way. -/
theorem walk_finds (onWay : kernel.Above ns caller.target)
    (same : ProperAncestor kernel caller.source caller.target ↔
      ProperAncestor kernel caller.source ns)
    (here : At caller child ns fds kept) :
    ∃ value after, Yields (fun fuel =>
        walk kernel caller.sourceUserns caller.targetUserns fuel child fds)
      (.returned value after) ∧ Finds kernel caller value after := by
  -- The induction goes up the chain of parents.
  induction ns using kernel.toAncestry.chain_induction generalizing child fds kept with
  | top ns top =>
    have parent : getParent kernel child fds = .error .EPERM := by
      rw [getParent, here.object]
      simp only [top]
    have none_ : ¬ ProperAncestor kernel caller.source caller.target :=
      same.not.mpr (not_properAncestor_of_top top)
    have finds : ∀ after, Since caller.table after [] → Finds kernel caller (-1) after :=
      fun after since => ⟨iff_of_true rfl none_, fun proper => absurd proper none_,
        [], since, nofun⟩
    by_cases own : child = caller.targetUserns
    · obtain rfl := here.eq_target_iff.mp own
      subst own
      refine ⟨-1, fds, Yields.last fun fuel => ?_, finds fds here.since⟩
      simp only [walk, parent, ne_eq, not_true, if_false]
    · obtain ⟨after, closed, left⟩ := here.close own [] here.since
      refine ⟨-1, after, Yields.last fun fuel => ?_, finds after left⟩
      simp only [walk, parent, own, ne_eq, not_true, not_false_eq_true, if_false, if_true, closed]
  | child ns above found ih =>
    have parent : getParent kernel child fds = .ok (fds.openNew kernel.numbering above) := by
      rw [getParent, here.object]
      simp only [found]
    have opened := here.since.openNew kernel.numbering above
    obtain ⟨new, -⟩ := openNew_notMem here.since kernel.numbering above
    have fresh := object_openNew kernel.numbering above fds
    generalize fds.openNew kernel.numbering above = later at parent opened new fresh
    obtain ⟨above_, later⟩ := later
    dsimp only at opened new fresh
    have source := (opened.object (mem_of_lookup caller.sourceOpen)).trans caller.sourceOpen
    have equal : nsEqual kernel above_ caller.sourceUserns later =
        .ok (decide (kernel.stat above = kernel.stat caller.source)) := by
      simp only [nsEqual, fresh, source]
    by_cases it : above = caller.source
    · -- The namespace is the child that is looked for.
      have towards : ChildTowards kernel caller.source caller.target ns := ⟨it ▸ found, onWay⟩
      have last : Since caller.table later ([] ++ (above_, above) :: kept) := opened
      obtain ⟨after, closed, left⟩ := last.close
      refine ⟨child, after, Yields.last fun fuel => ?_, ?_, fun _ => ?_, kept, left, ?_⟩
      · simp only [walk, parent, equal, congrArg kernel.stat it, decide_true, closed]
      · exact iff_of_false nofun (not_not.mpr (properAncestor_iff.mpr ⟨ns, towards⟩))
      · have there : At caller child ns after kept := ⟨left, here.place⟩
        refine ⟨child, ns, rfl, there.object, towards, fun target => ?_⟩
        obtain ⟨same_, -⟩ | ⟨-, other, -⟩ := here.place
        · exact same_
        · exact absurd target other
      · rintro entry mem
        obtain ⟨-, -, rfl⟩ | ⟨-, -, rfl⟩ := here.place
        · exact nomatch mem
        · rw [List.mem_singleton.mp mem]
    · -- The walk goes on at the parent.
      have differ : kernel.stat above ≠ kernel.stat caller.source :=
        fun same => it (kernel.identifies same)
      have onWay_ := (Ancestry.above_parent found).trans onWay
      have other := ne_target_of_parent found onWay
      have same_ := same.trans ((properAncestor_of_parent found).trans
        (or_iff_right (Ne.symm it)))
      by_cases own : child = caller.targetUserns
      · obtain rfl := here.eq_target_iff.mp own
        subst own
        obtain ⟨value, after, yields, finds⟩ :=
          ih onWay_ same_ ⟨opened, .inr ⟨new, other, rfl⟩⟩
        refine ⟨value, after, Yields.step (fun fuel => ?_) yields, finds⟩
        simp only [walk, parent, equal, differ, decide_false, ne_eq, not_true, if_false]
      · obtain ⟨closed_, closed, left⟩ := here.close own [(above_, above)] opened
        obtain ⟨value, after, yields, finds⟩ :=
          ih onWay_ same_ ⟨left, .inr ⟨new, other, rfl⟩⟩
        refine ⟨value, after, Yields.step (fun fuel => ?_) yields, finds⟩
        simp only [walk, parent, equal, differ, decide_false, own, ne_eq, not_false_eq_true,
          if_true, closed]

/-- `is_ancestor_userns` returns, finds what it should and closes what it should. -/
theorem isAncestorUserns_finds (kernel : Kernel Ns) (caller : Caller Ns) :
    ∃ value fds, Yields (isAncestorUserns kernel caller.sourceUserns caller.targetUserns
        (Descriptors.start caller.table caller.nodup)) (.returned value fds) ∧
      Finds kernel caller value fds :=
  walk_finds (Ancestry.above_self _) Iff.rfl ⟨since_start _ _, .inl ⟨rfl, rfl, rfl⟩⟩

/-- Of a chain of namespaces, each is in the one before it. -/
def outer : Nat → Option Nat
  | 0 => none
  | ns + 1 => some ns

/-- A chain of namespaces below the initial one. -/
def nested : Kernel Nat where
  parent := outer
  wellFounded := by
    refine Subrelation.wf ?_ Nat.lt_wfRel.wf
    intro above below found
    cases below with
    | zero => cases found
    | succ ns =>
      obtain rfl := Option.some.inj found
      exact Nat.lt_succ_self _
  numbering := .lowest
  stat ns := (4, ns)
  identifies _ _ same := (Prod.mk.inj same).2

/-- The caller asks about the first and the fourth namespace below the initial one. -/
def asks : Caller Nat where
  table := [(3, 1), (4, 4)]
  nodup := by decide
  sourceUserns := 3
  targetUserns := 4
  source := 1
  target := 4
  sourceOpen := rfl
  targetOpen := rfl

/-- What is returned refers to the second namespace, which is the child of the first one. -/
theorem isAncestorUserns_finds_nested : ∃ (fd : Nat) (fds : Descriptors Nat),
    Yields (isAncestorUserns nested 3 4 (Descriptors.start asks.table asks.nodup))
      (.returned fd fds) ∧ fds.object fd = some 2 ∧ Finds nested asks fd fds := by
  obtain ⟨value, fds, yields, finds⟩ := isAncestorUserns_finds nested asks
  have proper : ProperAncestor nested 1 4 := by
    refine ⟨by decide, ?_⟩
    -- From the fourth namespace on, the chain goes through the third and the second one.
    have third : nested.parent 4 = some 3 := rfl
    have second : nested.parent 3 = some 2 := rfl
    have first : nested.parent 2 = some 1 := rfl
    rw [Ancestry.above_of_parent third, Ancestry.above_of_parent second,
      Ancestry.above_of_parent first]
    exact .inr (.inr (.inr (Ancestry.above_self _)))
  obtain ⟨fd, child, rfl, refers, ⟨parent, _⟩, _⟩ := finds.child proper
  refine ⟨fd, fds, yields, ?_, finds⟩
  cases child with
  | zero => cases parent
  | succ ns =>
    obtain rfl : ns = 1 := Option.some.inj parent
    exact refers

end SysProg.Namespaces.NsCapable
