import Mathlib.Tactic
import Mathlib.Data.List.Perm.Basic

/-! Well-founded parent functions, their chains of ancestors, and the order they are found in. -/

namespace SysProg

/-- A parent function in which nobody has an endless line of ancestors. -/
structure Ancestry (α : Type*) where
  parent : α → Option α
  wellFounded : WellFounded fun above below => parent below = some above

namespace Ancestry

variable {α : Type*} (ancestry : Ancestry α)

/-- The ancestors of a node from the topmost one down to the node itself. -/
def chain (node : α) : List α :=
  match _found : ancestry.parent node with
  | none => [node]
  | some above => chain above ++ [node]
termination_by ancestry.wellFounded.wrap node

/-- The first node is the second one or an ancestor of it. -/
def Above (above below : α) : Prop :=
  above ∈ ancestry.chain below

/-- Chains grow from the top down. -/
theorem chain_induction {motive : α → Prop}
    (top : ∀ node, ancestry.parent node = none → motive node)
    (child : ∀ node above, ancestry.parent node = some above → motive above → motive node)
    (node : α) : motive node := by
  -- Parents are well founded, so going up from a node ends at a top.
  induction node using ancestry.wellFounded.induction with
  | _ node ih =>
    cases found : ancestry.parent node with
    | none => exact top node found
    | some above => exact child node above found (ih above found)

variable {ancestry}

/-- The chain of a topmost node is the node alone. -/
theorem chain_of_top {node : α} (top : ancestry.parent node = none) :
    ancestry.chain node = [node] := by
  rw [chain]
  -- Without a parent the chain is the node.
  split
  · rfl
  · simp_all

/-- The chain of any other node extends the chain of its parent. -/
theorem chain_of_parent {above node : α} (found : ancestry.parent node = some above) :
    ancestry.chain node = ancestry.chain above ++ [node] := by
  rw [chain]
  -- With a parent it goes on above it.
  split
  · simp_all
  · simp_all

/-- Every node is above itself. -/
theorem above_self (node : α) : ancestry.Above node node := by
  cases found : ancestry.parent node with
  | none => simp [Above, chain_of_top found]
  | some above => simp [Above, chain_of_parent found]

/-- What is above a node is the node or above its parent. -/
theorem above_of_parent {above node other : α} (found : ancestry.parent node = some above) :
    ancestry.Above other node ↔ other = node ∨ ancestry.Above other above := by
  simp [Above, chain_of_parent found, or_comm]

/-- Only a topmost node itself is above it. -/
theorem above_of_top {node other : α} (top : ancestry.parent node = none) :
    ancestry.Above other node ↔ other = node := by
  simp [Above, chain_of_top top]

/-- Being above is transitive. -/
theorem Above.trans {first second third : α} (upper : ancestry.Above first second)
    (lower : ancestry.Above second third) : ancestry.Above first third := by
  -- Induction down the chain of the lowest node.
  induction third using ancestry.chain_induction with
  | top node top => exact (above_of_top top).mp lower ▸ upper
  | child node above found ih =>
    rcases (above_of_parent found).mp lower with rfl | lower
    · exact upper
    · exact (above_of_parent found).mpr (.inr (ih lower))

/-- A parent is above its child. -/
theorem above_parent {above node : α} (found : ancestry.parent node = some above) :
    ancestry.Above above node :=
  (above_of_parent found).mpr (.inr (above_self above))

/-- No node is above its own parent. -/
theorem not_above_parent {above node : α} (found : ancestry.parent node = some above) :
    ¬ ancestry.Above node above := by
  -- Otherwise going up from the node would lead back to it.
  intro loop
  induction node using ancestry.wellFounded.induction generalizing above with
  | _ node ih =>
    cases higher : ancestry.parent above with
    | none =>
      obtain rfl := (above_of_top higher).mp loop
      simp [higher] at found
    | some top =>
      refine ih above found higher ?_
      rcases (above_of_parent higher).mp loop with rfl | loop
      · rw [higher] at found
        cases found
        exact above_self _
      · exact (above_parent found).trans loop

/-- A node below another one is it, or below exactly one of its children. -/
theorem above_iff_child {above node : α} :
    ancestry.Above above node ↔
      above = node ∨ ∃ child, ancestry.parent child = some above ∧ ancestry.Above child node := by
  constructor
  · intro higher
    -- By induction along the chain upwards from the node.
    induction node using ancestry.chain_induction with
    | top node top => exact .inl ((above_of_top top).mp higher)
    | child node middle found ih =>
      rcases (above_of_parent found).mp higher with rfl | higher
      · exact .inl rfl
      · rcases ih higher with rfl | ⟨child, parent, below⟩
        · exact .inr ⟨node, found, above_self node⟩
        · exact .inr ⟨child, parent, (above_of_parent found).mpr (.inr below)⟩
  -- What is above the child is above the node.
  · rintro (rfl | ⟨child, parent, below⟩)
    · exact above_self _
    · exact (above_parent parent).trans below

/-- Of two nodes above a third one, one is above the other. -/
theorem above_total {first second node : α} (one : ancestry.Above first node)
    (two : ancestry.Above second node) :
    ancestry.Above first second ∨ ancestry.Above second first := by
  -- By induction along the chain: both lie on it, so one comes before the other.
  induction node using ancestry.chain_induction with
  | top node top =>
    obtain rfl := (above_of_top top).mp one
    exact .inr two
  | child node middle found ih =>
    rcases (above_of_parent found).mp one with rfl | upper
    · exact .inr two
    · rcases (above_of_parent found).mp two with rfl | lower
      · exact .inl one
      · exact ih upper lower

variable (ancestry) in
/-- Somebody topmost is above every node. -/
theorem exists_top (node : α) : ∃ top, ancestry.parent top = none ∧ ancestry.Above top node := by
  -- By induction along the chain, whose end has no parent.
  induction node using ancestry.chain_induction with
  | top node top => exact ⟨node, top, above_self node⟩
  | child node above found ih =>
    obtain ⟨top, highest, higher⟩ := ih
    exact ⟨top, highest, higher.trans (above_parent found)⟩

/-- Only one topmost node is above a node. -/
theorem top_unique {first second node : α} (one : ancestry.parent first = none)
    (two : ancestry.parent second = none) (left : ancestry.Above first node)
    (right : ancestry.Above second node) : first = second := by
  -- Of the two one is above the other, and nothing else is above a top.
  rcases above_total left right with higher | higher
  · exact (above_of_top two).mp higher
  · exact ((above_of_top one).mp higher).symm

/-- Two children of one node that are above the same node are the same child. -/
theorem child_unique {above first second node : α} (one : ancestry.parent first = some above)
    (two : ancestry.parent second = some above) (left : ancestry.Above first node)
    (right : ancestry.Above second node) : first = second := by
  -- Of the two one is above the other, and then it would be above their common parent.
  rcases above_total left right with higher | higher
  · rcases (above_of_parent two).mp higher with same | loop
    · exact same
    · exact absurd loop (not_above_parent one)
  · rcases (above_of_parent one).mp higher with same | loop
    · exact same.symm
    · exact absurd loop (not_above_parent two)

variable (ancestry) in
/-- Whatever has been found, its parent has been found, too, and nothing has been found twice. -/
structure Closed (order : List α) : Prop where
  nodup : order.Nodup
  parents : ∀ node ∈ order, ∀ above, ancestry.parent node = some above → above ∈ order

/-- In a closed order, everything above a node that has been found has been found. -/
theorem Closed.above {order : List α} (closed : ancestry.Closed order) {above node : α}
    (found : node ∈ order) (higher : ancestry.Above above node) : above ∈ order := by
  -- By induction along the chain, each node of which has its parent in the order.
  induction node using ancestry.chain_induction with
  | top node top => exact (above_of_top top).mp higher ▸ found
  | child node middle parent ih =>
    rcases (above_of_parent parent).mp higher with rfl | higher
    · exact found
    · exact ih (closed.parents node found middle parent) higher

/-- Nothing has been found in the beginning. -/
theorem closed_nil : ancestry.Closed [] := ⟨List.nodup_nil, nofun⟩

/-- A new node may be found when its parent has been found. -/
theorem Closed.append {order : List α} (closed : ancestry.Closed order) {node : α}
    (new : node ∉ order) (parent : ∀ above, ancestry.parent node = some above → above ∈ order) :
    ancestry.Closed (order ++ [node]) := by
  -- The new node is not in the order yet, and its parent is.
  refine ⟨List.nodup_append.mpr
      ⟨closed.nodup, List.nodup_singleton _, fun other old same mem => ?_⟩,
    fun other mem above found => List.mem_append_left _ ?_⟩
  · rintro rfl
    exact new (List.mem_singleton.mp mem ▸ old)
  · rcases List.mem_append.mp mem with old | same
    · exact closed.parents other old above found
    · exact parent above (List.mem_singleton.mp same ▸ found)

variable [DecidableEq α]

variable (ancestry) in
/-- Finding a node also finds those of its ancestors that are new, the topmost one first. -/
def extend (order : List α) (node : α) : List α :=
  order ++ (ancestry.chain node).filter (· ∉ order)

/-- Finding a node finds exactly what is above it. -/
theorem mem_extend {order : List α} {node other : α} :
    other ∈ ancestry.extend order node ↔ other ∈ order ∨ ancestry.Above other node := by
  simp only [extend, List.mem_append, List.mem_filter, decide_eq_true_eq, Above]
  tauto

/-- Nothing changes when a node is found again. -/
theorem extend_of_mem {order : List α} (closed : ancestry.Closed order) {node : α}
    (found : node ∈ order) : ancestry.extend order node = order := by
  rw [extend, List.filter_eq_nil_iff.mpr, List.append_nil]
  intro above higher
  simpa using closed.above found higher

/-- A new topmost node is found alone. -/
theorem extend_of_top {order : List α} {node : α} (new : node ∉ order)
    (top : ancestry.parent node = none) : ancestry.extend order node = order ++ [node] := by
  simp [extend, chain_of_top top, new]

/-- Any other new node is found after its parent. -/
theorem extend_of_parent {order : List α} {above node : α} (new : node ∉ order)
    (found : ancestry.parent node = some above) :
    ancestry.extend order node = ancestry.extend order above ++ [node] := by
  simp [extend, chain_of_parent found, new]

/-- A new node is not found by finding its parent. -/
theorem not_mem_extend_parent {order : List α} {above node : α} (new : node ∉ order)
    (found : ancestry.parent node = some above) : node ∉ ancestry.extend order above :=
  fun mem => (mem_extend.mp mem).elim new (not_above_parent found)

/-- Finding a node keeps the order closed. -/
theorem Closed.extend {order : List α} (closed : ancestry.Closed order) (node : α) :
    ancestry.Closed (ancestry.extend order node) := by
  -- By induction along the chain: the parent is added before the node.
  induction node using ancestry.chain_induction with
  | top node top =>
    by_cases new : node ∈ order
    · rwa [extend_of_mem closed new]
    · rw [extend_of_top new top]
      exact closed.append new (by simp [top])
  | child node middle found ih =>
    by_cases new : node ∈ order
    · rwa [extend_of_mem closed new]
    · rw [extend_of_parent new found]
      refine ih.append (not_mem_extend_parent new found) fun above parent => ?_
      rw [found] at parent
      cases parent
      exact mem_extend.mpr (.inr (above_self _))

variable (ancestry) in
/-- What has been found of a node and the nodes below it. -/
def below (order : List α) (node : α) : List α :=
  order.filter fun other => node ∈ ancestry.chain other

/-- A node itself has been found below it. -/
theorem below_pos {order : List α} {node : α} (found : node ∈ order) :
    0 < (ancestry.below order node).length :=
  List.length_pos_of_mem (List.mem_filter.mpr ⟨found, decide_eq_true (above_self node)⟩)

/-- Less has been found below a child than below its parent. -/
theorem length_below_lt {order : List α} {above node : α}
    (parent : ancestry.parent node = some above) (found : above ∈ order) :
    (ancestry.below order node).length < (ancestry.below order above).length := by
  -- What is below the child is below the parent, and the parent is not below the child.
  have part : ancestry.below order node =
      (ancestry.below order above).filter fun other => node ∈ ancestry.chain other := by
    rw [below, below, List.filter_filter]
    refine List.filter_congr fun other _ => ?_
    by_cases lower : node ∈ ancestry.chain other
    · have higher : above ∈ ancestry.chain other := (above_parent parent).trans lower
      simp [lower, higher]
    · simp [lower]
  rw [part]
  refine List.length_filter_lt_length_iff_exists.mpr
    ⟨above, List.mem_filter.mpr ⟨found, decide_eq_true (above_self above)⟩, ?_⟩
  simpa [Above] using not_above_parent parent

variable (ancestry) in
/-- The children of a node that have been found. -/
def children (order : List α) (node : α) : List α :=
  order.filter (ancestry.parent · = some node)

/-- The children of a node are those whose parent it is. -/
theorem mem_children {order : List α} {node child : α} :
    child ∈ ancestry.children order node ↔ child ∈ order ∧ ancestry.parent child = some node := by
  simp [children, List.mem_filter]

/-- A node found last becomes the last child of its parent. -/
theorem children_append (order : List α) (node other : α) :
    ancestry.children (order ++ [node]) other = ancestry.children order other ++
      if ancestry.parent node = some other then [node] else [] := by
  rw [children, children, List.filter_append, List.filter_singleton]
  simp

/-- Lists for what is below each child together list what is properly below the node. -/
theorem mem_flatten_children {order : List α} (closed : ancestry.Closed order) {node : α}
    {listed : α → List α} {wanted : α → Prop}
    (lists : ∀ child ∈ ancestry.children order node, ∀ other,
      other ∈ listed child ↔ other ∈ order ∧ ancestry.Above child other ∧ wanted other)
    (other : α) : other ∈ ((ancestry.children order node).map listed).flatten ↔
      other ∈ order ∧ (∃ child, ancestry.parent child = some node ∧ ancestry.Above child other) ∧
        wanted other := by
  simp only [List.mem_flatten, List.mem_map, exists_exists_and_eq_and]
  -- What is below a node and in the order is below one of the children that are in it.
  constructor
  · rintro ⟨child, mem, there⟩
    obtain ⟨found, higher, asked⟩ := (lists child mem other).mp there
    exact ⟨found, ⟨child, (mem_children.mp mem).2, higher⟩, asked⟩
  · rintro ⟨found, ⟨child, parent, higher⟩, asked⟩
    have mem := mem_children.mpr ⟨closed.above found higher, parent⟩
    exact ⟨child, mem, (lists child mem other).mpr ⟨found, higher, asked⟩⟩

/-- Lists for what is below each child have nothing in common. -/
theorem nodup_flatten_children {order : List α} (closed : ancestry.Closed order) {node : α}
    {listed : α → List α} (nodup : ∀ child ∈ ancestry.children order node, (listed child).Nodup)
    (lists : ∀ child ∈ ancestry.children order node, ∀ other ∈ listed child,
      ancestry.Above child other) :
    ((ancestry.children order node).map listed).flatten.Nodup := by
  -- Nothing is below two different children of one node.
  refine List.nodup_flatten.mpr ⟨fun ids mem => ?_, ?_⟩
  · obtain ⟨child, there, rfl⟩ := List.mem_map.mp mem
    exact nodup child there
  · refine List.pairwise_map.mpr (List.Pairwise.imp_of_mem ?_ (closed.nodup.filter _))
    intro first second one two apart other left right
    exact apart (child_unique (mem_children.mp one).2 (mem_children.mp two).2
      (lists first one other left) (lists second two other right))

/-- What has been found after finding these nodes one after the other. -/
def extendAll (ancestry : Ancestry α) (order : List α) (nodes : List α) : List α :=
  nodes.foldl ancestry.extend order

/-- Finding nodes keeps the order closed. -/
theorem Closed.extendAll {order : List α} (closed : ancestry.Closed order) (nodes : List α) :
    ancestry.Closed (ancestry.extendAll order nodes) := by
  induction nodes generalizing order with
  | nil => exact closed
  | cons node rest ih => exact ih (closed.extend node)

/-- Everything above one of the nodes has been found, and nothing else. -/
theorem mem_extendAll {order nodes : List α} {other : α} :
    other ∈ ancestry.extendAll order nodes ↔
      other ∈ order ∨ ∃ node ∈ nodes, ancestry.Above other node := by
  -- By induction on the nodes that are added.
  induction nodes generalizing order with
  | nil => simp [Ancestry.extendAll]
  | cons node rest ih =>
    rw [Ancestry.extendAll, List.foldl_cons, ← Ancestry.extendAll, ih, mem_extend]
    simp only [List.mem_cons, exists_eq_or_imp, or_assoc]

/-- The same nodes are found in every order. -/
theorem extendAll_perm {first second : List α} (same : first.Perm second) :
    (ancestry.extendAll [] first).Perm (ancestry.extendAll [] second) := by
  refine (List.perm_ext_iff_of_nodup (closed_nil.extendAll first).nodup
    (closed_nil.extendAll second).nodup).mpr fun other => ?_
  simp only [mem_extendAll, same.mem_iff]

end Ancestry

end SysProg
