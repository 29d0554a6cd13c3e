import SysProg.Namespaces.NamespacesOfLaws

/-! What is displayed of the namespaces that have been found. -/

namespace SysProg.Namespaces

variable {kernel : Kernel} {opts : CmdLineOptions}

/-- Nothing else has an entry than what has been found. -/
theorem Represents.nsList_of_mem {nsi : NamespaceInfo} {order : List NamespaceId}
    {calls : List (NamespaceFile × Int)} (represents : Represents kernel opts nsi [] order calls)
    {nsid : NamespaceId} (there : nsid ∈ order) :
    nsi.nsList nsid = some (entry kernel opts order calls nsid) := by
  rw [represents.nsList, if_pos (.inr there)]

/-- The keys of the list are the namespaces that have been found. -/
theorem Represents.isSome_iff {nsi : NamespaceInfo} {order : List NamespaceId}
    {calls : List (NamespaceFile × Int)} (represents : Represents kernel opts nsi [] order calls)
    (nsid : NamespaceId) : (nsi.nsList nsid).isSome ↔ nsid ∈ order := by
  rw [represents.nsList nsid]
  by_cases there : nsid ∈ order <;> simp [there]

/-- Running an action that succeeds everywhere over a list. -/
theorem mapM_of_ok {α β ε : Type} {action : α → Except ε β} {result : α → β} {xs : List α}
    (ok : ∀ x ∈ xs, action x = .ok (result x)) : xs.mapM action = .ok (xs.map result) := by
  -- By induction on the list.
  induction xs with
  | nil => rfl
  | cons x xs ih =>
    have rest := ih fun other mem => ok other (List.mem_cons_of_mem _ mem)
    rw [List.mapM_cons, ok x List.mem_cons_self, rest]
    rfl

/-- The line of a namespace is displayed if the namespace is. -/
def shownLines (opts : CmdLineOptions) (ns : Namespace) (line : Line) : List Line :=
  if ns.Displayed opts then [line] else []

/-- Whether the line of a namespace is displayed. -/
theorem mem_shownLines {ns : Namespace} {line : Line} {nsid : NamespaceId} :
    nsid ∈ (shownLines opts ns line).map Line.nsid ↔ nsid = line.nsid ∧ ns.Displayed opts := by
  by_cases displayed : ns.Displayed opts <;> simp [shownLines, displayed]

/-- The display below a namespace shows the displayed ones there exactly once, given enough fuel. -/
theorem display_tree {nsi : NamespaceInfo} {order : List NamespaceId}
    {calls : List (NamespaceFile × Int)} (represents : Represents kernel opts nsi [] order calls)
    {nsid : NamespaceId} (there : nsid ∈ order) (level : Nat) :
    ∃ lines, (∀ fuel, ((hierarchy kernel opts).below order nsid).length ≤ fuel →
        displayNamespaceTree opts nsi fuel nsid level = .ok lines) ∧
      (lines.map Line.nsid).Nodup ∧
      ∀ other, other ∈ lines.map Line.nsid ↔ other ∈ order ∧
        (hierarchy kernel opts).Above nsid other ∧
        (entry kernel opts order calls other).Displayed opts := by
  -- Induction on the number of namespaces below; the trees of two children have nothing in common.
  induction size : ((hierarchy kernel opts).below order nsid).length using Nat.strong_induction_on
    generalizing nsid level with
  | _ size ih =>
    subst size
    have less : ∀ child ∈ (hierarchy kernel opts).children order nsid,
        ((hierarchy kernel opts).below order child).length <
          ((hierarchy kernel opts).below order nsid).length := fun child mem =>
      Ancestry.length_below_lt (Ancestry.mem_children.mp mem).2 there
    have child : ∀ child, child ∈ (hierarchy kernel opts).children order nsid →
        ∃ lines, (∀ fuel, ((hierarchy kernel opts).below order child).length ≤ fuel →
            displayNamespaceTree opts nsi fuel child (level + 1) = .ok lines) ∧
          (lines.map Line.nsid).Nodup ∧
          ∀ other, other ∈ lines.map Line.nsid ↔ other ∈ order ∧
            (hierarchy kernel opts).Above child other ∧
            (entry kernel opts order calls other).Displayed opts := fun child mem =>
      ih _ (less child mem) (Ancestry.mem_children.mp mem).1 (level + 1) rfl
    choose! lines total nodup shows using child
    have ids : ((((hierarchy kernel opts).children order nsid).map lines).flatten).map Line.nsid =
        (((hierarchy kernel opts).children order nsid).map
          fun child => (lines child).map Line.nsid).flatten := by
      rw [List.map_flatten, List.map_map]
      rfl
    have shownBelow := Ancestry.mem_flatten_children represents.closed shows
    refine ⟨shownLines opts (entry kernel opts order calls nsid) ⟨nsid, level⟩ ++
      (((hierarchy kernel opts).children order nsid).map lines).flatten, ?_, ?_, ?_⟩
    · intro fuel enough
      obtain ⟨fuel, rfl⟩ : ∃ less, fuel = less + 1 := by
        have positive : 0 < ((hierarchy kernel opts).below order nsid).length :=
          Ancestry.below_pos there
        exact ⟨fuel - 1, by omega⟩
      have deeper : ((hierarchy kernel opts).children order nsid).mapM (fun child =>
          displayNamespaceTree opts nsi fuel child (level + 1)) =
          .ok (((hierarchy kernel opts).children order nsid).map lines) :=
        mapM_of_ok fun child mem => total child mem fuel (by have := less child mem; omega)
      rw [displayNamespaceTree, represents.nsList_of_mem there]
      simp only [entry, deeper]
      rfl
    · rw [List.map_append, ids]
      refine List.nodup_append.mpr ⟨?_, Ancestry.nodup_flatten_children represents.closed nodup
        fun child mem other shown => ((shows child mem other).mp shown).2.1, ?_⟩
      · rw [shownLines]
        split <;> simp
      · rintro here shown other below rfl
        obtain ⟨rfl, _⟩ := mem_shownLines.mp shown
        obtain ⟨_, ⟨child, owned, higher⟩, _⟩ := (shownBelow _).mp below
        exact Ancestry.not_above_parent owned higher
    · intro other
      rw [List.map_append, ids, List.mem_append, mem_shownLines, shownBelow,
        Ancestry.above_iff_child]
      constructor
      · rintro (⟨rfl, displayed⟩ | ⟨found, below, displayed⟩)
        · exact ⟨there, .inl rfl, displayed⟩
        · exact ⟨found, .inr below, displayed⟩
      · rintro ⟨found, rfl | below, displayed⟩
        · exact .inl ⟨rfl, displayed⟩
        · exact .inr ⟨found, below, displayed⟩

/-- The lines of a tree below a namespace name each namespace at most once. -/
theorem count_lines {lines : List Line} {shown : NamespaceId → Prop} [DecidablePred shown]
    (nodup : (lines.map Line.nsid).Nodup)
    (shows : ∀ nsid, nsid ∈ lines.map Line.nsid ↔ shown nsid) (nsid : NamespaceId) :
    (lines.map Line.nsid).count nsid = if shown nsid then 1 else 0 := by
  -- A namespace that is shown stands in one line, and no other one does.
  split
  · rename_i displayed
    exact List.count_eq_one_of_mem nodup ((shows nsid).mpr displayed)
  · rename_i hidden
    exact List.count_eq_zero.mpr fun line => hidden ((shows nsid).mp line)

open Classical in
/-- The hierarchies show what is below the root, and what is below the special entry. -/
theorem display_hierarchies {nsi : NamespaceInfo} {order : List NamespaceId}
    {calls : List (NamespaceFile × Int)} (represents : Represents kernel opts nsi [] order calls)
    (there : nsi.rootNS ∈ order) :
    ∃ lines, (∃ enough, ∀ fuel, enough ≤ fuel →
        displayNamespaceHierarchies opts nsi fuel = .ok lines) ∧
      ∀ nsid ∈ order, (entry kernel opts order calls nsid).Displayed opts →
        (lines.map Line.nsid).count nsid =
          (if (hierarchy kernel opts).Above nsi.rootNS nsid then 1 else 0) +
          if (hierarchy kernel opts).Above invisUserNS nsid then 1 else 0 := by
  obtain ⟨visible, total, nodup, shows⟩ := display_tree represents there 0
  have one := count_lines nodup shows
  -- The invisible namespaces have a tree of their own only when one was found.
  by_cases special : invisUserNS ∈ order
  · obtain ⟨invisible, total_, nodup_, shows_⟩ := display_tree represents special 0
    have two := count_lines nodup_ shows_
    refine ⟨visible ++ invisible, ⟨max ((hierarchy kernel opts).below order nsi.rootNS).length
      ((hierarchy kernel opts).below order invisUserNS).length, fun fuel enough => ?_⟩, ?_⟩
    · rw [displayNamespaceHierarchies, total fuel (le_trans (le_max_left _ _) enough),
        represents.nsList_of_mem special]
      simp only [Option.isSome_some, if_true,
        total_ fuel (le_trans (le_max_right _ _) enough)]
      rfl
    · intro nsid found displayed
      rw [List.map_append, List.count_append, one, two]
      simp only [found, displayed, true_and, and_true]
  · refine ⟨visible,
      ⟨((hierarchy kernel opts).below order nsi.rootNS).length, fun fuel enough => ?_⟩,
      ?_⟩
    · rw [displayNamespaceHierarchies, total fuel enough]
      have absent : (nsi.nsList invisUserNS).isSome = false := by
        rw [Bool.eq_false_iff, ne_eq, represents.isSome_iff]
        exact special
      simp only [absent]
      rfl
    · intro nsid found displayed
      have apart : ¬ (hierarchy kernel opts).Above invisUserNS nsid := fun higher =>
        special (represents.closed.above found higher)
      rw [one]
      simp only [found, displayed, apart, true_and, and_true, if_false, add_zero]

/-- The topmost namespaces that have been found are those that have been discovered. -/
theorem mem_tops_iff (answers : kernel.Answers opts) {calls : List (NamespaceFile × Int)}
    {nsfd : NamespaceFile} : nsfd.val ∈ tops kernel opts (found kernel opts calls) ↔
      Discovered kernel opts calls nsfd ∧ Topmost kernel opts nsfd := by
  rw [tops, List.mem_filter, mem_found_iff, topmost_iff answers]
  simp [nsfd.property]

/-- Only real namespaces are topmost. -/
theorem ne_of_mem_tops {order : List NamespaceId} {nsid : NamespaceId}
    (top : nsid ∈ tops kernel opts order) : nsid ≠ invisUserNS := by
  have conditions := (List.mem_filter.mp top).2
  simp only [ne_eq, decide_eq_true_eq] at conditions
  exact conditions.1

/-- What is found is below a topmost namespace or below the special entry. -/
theorem below_top_or_invisible {order : List NamespaceId}
    (closed : (hierarchy kernel opts).Closed order) {nsid : NamespaceId} (there : nsid ∈ order) :
    (∃ top ∈ tops kernel opts order, (hierarchy kernel opts).Above top nsid) ∨
      invisUserNS ∈ order ∧ (hierarchy kernel opts).Above invisUserNS nsid := by
  obtain ⟨top, highest, higher⟩ := (hierarchy kernel opts).exists_top nsid
  have found := closed.above there higher
  -- The top of the chain is the special entry or a topmost namespace.
  by_cases special : top = invisUserNS
  · exact .inr ⟨special ▸ found, special ▸ higher⟩
  · refine .inl ⟨top, List.mem_filter.mpr ⟨found, ?_⟩, higher⟩
    simpa [special] using highest

/-- The root of a list that is not empty has been found. -/
theorem Represents.rootNS_mem {nsi : NamespaceInfo} {order : List NamespaceId}
    {calls : List (NamespaceFile × Int)} (represents : Represents kernel opts nsi [] order calls)
    (nonempty : order ≠ []) : nsi.rootNS ∈ order := by
  rw [represents.rootNS]
  -- The root is the last topmost namespace, or the special entry where there is none.
  cases last : (tops kernel opts order).getLast? with
  | some top => exact List.mem_of_mem_filter (List.mem_of_getLast? last)
  | none =>
    have none_ := List.getLast?_eq_none_iff.mp last
    obtain ⟨nsid, there⟩ := List.exists_mem_of_ne_nil _ nonempty
    rcases below_top_or_invisible represents.closed there with ⟨top, mem, _⟩ | ⟨special, _⟩
    · rw [none_] at mem
      cases mem
    · exact special

/-- A call finds something. -/
theorem found_ne_nil {calls : List (NamespaceFile × Int)} (some_ : calls ≠ []) :
    found kernel opts calls ≠ [] := by
  obtain ⟨call, called⟩ := List.exists_mem_of_ne_nil _ some_
  exact List.ne_nil_of_mem (mem_found.mpr ⟨call, called, Ancestry.above_self _⟩)

/-- Every namespace in the list that is selected, or that is a user namespace, is shown once. -/
def DisplayComplete (kernel : Kernel) (opts : CmdLineOptions)
    (calls : List (NamespaceFile × Int)) : Prop :=
  ∃ nsi, addNamespaces kernel opts .empty calls = .ok nsi ∧
    ∃ lines, (∃ enough, ∀ fuel, enough ≤ fuel →
        displayNamespaceHierarchies opts nsi fuel = .ok lines) ∧
      ∀ nsid ns, nsi.nsList nsid = some ns → ns.Displayed opts →
        (lines.map Line.nsid).count nsid = 1

open Classical in
/-- The display is complete when all that is displayed is below the root or the special entry. -/
theorem displayComplete_iff_below {calls : List (NamespaceFile × Int)} (some_ : calls ≠ [])
    {nsi : NamespaceInfo}
    (added : addNamespaces kernel opts .empty calls = .ok nsi)
    (represents : Represents kernel opts nsi [] (found kernel opts calls) calls) :
    DisplayComplete kernel opts calls ↔ ∀ nsid ∈ found kernel opts calls,
      (entry kernel opts (found kernel opts calls) calls nsid).Displayed opts →
        (if (hierarchy kernel opts).Above nsi.rootNS nsid then 1 else 0) +
          (if (hierarchy kernel opts).Above invisUserNS nsid then 1 else 0) = 1 := by
  -- The display shows what is below the root and what is below the special entry.
  obtain ⟨lines, ⟨enough, total⟩, count⟩ := display_hierarchies represents
    (represents.rootNS_mem (found_ne_nil some_))
  constructor
  -- Two displays with enough fuel are the same one.
  · rintro ⟨nsi_, added_, lines_, ⟨enough_, total_⟩, once⟩ nsid there displayed
    obtain rfl : nsi = nsi_ := Except.ok.inj (added.symm.trans added_)
    obtain rfl : lines = lines_ := Except.ok.inj <|
      (total (max enough enough_) (le_max_left _ _)).symm.trans
        (total_ (max enough enough_) (le_max_right _ _))
    rw [← count nsid there displayed]
    exact once nsid _ (represents.nsList_of_mem there) displayed
  · intro below
    refine ⟨nsi, added, lines, ⟨enough, total⟩, fun nsid ns recorded displayed => ?_⟩
    have there : nsid ∈ found kernel opts calls :=
      (represents.isSome_iff nsid).mp (by rw [recorded]; rfl)
    rw [represents.nsList_of_mem there] at recorded
    cases recorded
    rw [count nsid there displayed]
    exact below nsid there displayed

/-- The kernel answers, and with `--pidns` all PID namespaces are shown. -/
structure Promised (kernel : Kernel) (opts : CmdLineOptions)
    (calls : List (NamespaceFile × Int)) : Prop where
  answers : kernel.Answers opts
  /-- Only the symlinks of PID namespaces are followed, and their ancestors are PID namespaces. -/
  pidOnly : opts.showPidnsHierarchy = true → ∀ nsfd, Discovered kernel opts calls nsfd →
    kernel.nsType nsfd = .ok cloneNewPid
  /-- The option `--namespaces` is refused, so all types are selected. -/
  pidSelected : opts.showPidnsHierarchy = true → cloneNewPid &&& opts.namespaces ≠ 0

/-- A topmost namespace is displayed. -/
theorem Promised.displayed {calls : List (NamespaceFile × Int)}
    (promised : Promised kernel opts calls) {nsfd : NamespaceFile}
    (discovered : Discovered kernel opts calls nsfd) (topmost : Topmost kernel opts nsfd) :
    (entry kernel opts (found kernel opts calls) calls nsfd.val).Displayed opts := by
  have typed := promised.answers.typeOf nsfd
  -- A topmost namespace is a user namespace, or one of the PID namespaces that are asked for.
  rcases topmost.2 with user | pid
  · rw [user] at typed
    exact .inl (Except.ok.inj typed).symm
  · rw [promised.pidOnly pid nsfd discovered] at typed
    right
    rw [show (entry kernel opts (found kernel opts calls) calls nsfd.val).nsType = cloneNewPid from
      (Except.ok.inj typed).symm]
    exact promised.pidSelected pid

/-- A complete display has a single topmost namespace. -/
theorem topmost_unique_of_complete {calls : List (NamespaceFile × Int)}
    (promised : Promised kernel opts calls) (some_ : calls ≠ [])
    (complete : DisplayComplete kernel opts calls) :
    ∃! top, Discovered kernel opts calls top ∧ Topmost kernel opts top := by
  -- The root is the topmost namespace found last, or the special entry if there is none.
  obtain ⟨nsi, added, represents⟩ := addNamespaces_represents promised.answers calls
  have once := (displayComplete_iff_below some_ added represents).mp complete
  cases last : (tops kernel opts (found kernel opts calls)).getLast? with
  | none =>
    have root : nsi.rootNS = invisUserNS := by rw [represents.rootNS, last]; rfl
    have special := root ▸ represents.rootNS_mem (found_ne_nil some_)
    have twice := once invisUserNS special (.inl (by simp [entry, Kernel.typeOf]))
    rw [root, if_pos (Ancestry.above_self _)] at twice
    omega
  | some root =>
    have root_ : nsi.rootNS = root := by rw [represents.rootNS, last]; rfl
    have top := List.mem_of_getLast? last
    refine ⟨⟨root, ne_of_mem_tops top⟩, (mem_tops_iff promised.answers).mp top, ?_⟩
    rintro other ⟨discovered, topmost⟩
    have shown := once other.val (mem_found_iff.mpr discovered)
      (promised.displayed discovered topmost)
    have highest := (topmost_iff promised.answers other).mp topmost
    rw [root_, Ancestry.above_of_top highest, Ancestry.above_of_top highest,
      if_neg other.property.symm] at shown
    by_contra apart
    rw [if_neg fun same => apart (Subtype.ext same.symm)] at shown
    cases shown

/-- With a single topmost namespace the display is complete. -/
theorem complete_of_topmost_unique {calls : List (NamespaceFile × Int)}
    (promised : Promised kernel opts calls) (some_ : calls ≠ [])
    (single : ∃! top, Discovered kernel opts calls top ∧ Topmost kernel opts top) :
    DisplayComplete kernel opts calls := by
  obtain ⟨nsi, added, represents⟩ := addNamespaces_represents promised.answers calls
  obtain ⟨top, ⟨discovered, topmost⟩, unique⟩ := single
  have highest := (topmost_iff promised.answers top).mp topmost
  -- There is one top, so it is the root.
  have only : ∀ other ∈ tops kernel opts (found kernel opts calls), other = top.val := by
    intro other mem
    have same := unique ⟨other, ne_of_mem_tops mem⟩ ((mem_tops_iff promised.answers).mp mem)
    exact congrArg Subtype.val same
  have root : nsi.rootNS = top.val := by
    rw [represents.rootNS]
    cases last : (tops kernel opts (found kernel opts calls)).getLast? with
    | some other => exact only other (List.mem_of_getLast? last)
    | none =>
      have mem := (mem_tops_iff promised.answers).mpr ⟨discovered, topmost⟩
      rw [List.getLast?_eq_none_iff.mp last] at mem
      cases mem
  refine (displayComplete_iff_below some_ added represents).mpr fun nsid there displayed => ?_
  -- Nothing is below the top and the special entry at once.
  have apart : ¬ ((hierarchy kernel opts).Above top.val nsid ∧
      (hierarchy kernel opts).Above invisUserNS nsid) := fun both =>
    top.property (Ancestry.top_unique highest (hierarchy_invisUserNS kernel opts) both.1 both.2)
  rw [root]
  rcases below_top_or_invisible represents.closed there with ⟨other, mem, higher⟩ | ⟨_, higher⟩
  · rw [only other mem] at higher
    rw [if_pos higher, if_neg fun special => apart ⟨higher, special⟩]
  · rw [if_pos higher, if_neg fun visible => apart ⟨visible, higher⟩]

/-- The display is complete exactly when a single topmost namespace has been discovered. -/
theorem displayComplete_iff {calls : List (NamespaceFile × Int)}
    (promised : Promised kernel opts calls) (some_ : calls ≠ []) :
    DisplayComplete kernel opts calls ↔
      ∃! top, Discovered kernel opts calls top ∧ Topmost kernel opts top :=
  ⟨topmost_unique_of_complete promised some_, complete_of_topmost_unique promised some_⟩

/-- A kernel with user namespaces whose parents are not visible. -/
def topmostKernel : Kernel where
  nsType _ := .ok cloneNewUser
  ownerUid _ := .ok 1000
  ioctl _ _ := .error .eperm
  wellFounded _ := ⟨fun _ => ⟨_, nofun⟩⟩

/-- The default options, which select all types. -/
def defaultOptions : CmdLineOptions where
  showPidnsHierarchy := false
  searchTasks := false
  deepScan := false
  namespaces := 0x7E020080

/-- All promises are kept where all user namespaces are topmost. -/
theorem promised_topmostKernel (calls : List (NamespaceFile × Int)) :
    Promised topmostKernel defaultOptions calls where
  -- Every namespace of this kernel is a user namespace without a parent that is visible.
  answers :=
    ⟨fun _ => ⟨_, rfl⟩, fun _ _ => ⟨_, rfl⟩, fun _ _ failed => (Except.error.inj failed).symm⟩
  pidOnly := nofun
  pidSelected := nofun

/-- A single user namespace is displayed completely. -/
theorem displayComplete_singleTop :
    DisplayComplete topmostKernel defaultOptions [(⟨⟨4, 1⟩, by decide⟩, 100)] := by
  -- The call finds a single namespace, which is topmost.
  refine (displayComplete_iff (promised_topmostKernel _) (by simp)).mpr
    ⟨⟨⟨4, 1⟩, by decide⟩, ⟨⟨_, List.mem_singleton_self _, .refl⟩, rfl, .inl rfl⟩, ?_⟩
  rintro other ⟨⟨call, called, leads⟩, _⟩
  obtain rfl := List.mem_singleton.mp called
  rcases Relation.ReflTransGen.cases_head leads with same | ⟨parent, found, _⟩
  · exact same.symm
  · cases found

/-- Of two topmost user namespaces, one is not displayed. -/
theorem not_displayComplete_twoTops :
    Promised topmostKernel defaultOptions
        [(⟨⟨4, 1⟩, by decide⟩, 100), (⟨⟨4, 2⟩, by decide⟩, 200)] ∧
      ¬ DisplayComplete topmostKernel defaultOptions
        [(⟨⟨4, 1⟩, by decide⟩, 100), (⟨⟨4, 2⟩, by decide⟩, 200)] := by
  -- Both calls find a topmost namespace of their own.
  refine ⟨promised_topmostKernel _, fun complete => ?_⟩
  have single := topmost_unique_of_complete (promised_topmostKernel _) (by simp) complete
  obtain ⟨top, _, unique⟩ := single
  have first := unique ⟨⟨4, 1⟩, by decide⟩ ⟨⟨_, List.mem_cons_self, .refl⟩, rfl, .inl rfl⟩
  have second := unique ⟨⟨4, 2⟩, by decide⟩
    ⟨⟨_, List.mem_cons_of_mem _ List.mem_cons_self, .refl⟩, rfl, .inl rfl⟩
  rw [← first] at second
  simp at second

end SysProg.Namespaces
