import SysProg.Namespaces.DisplayLaws

/-! The namespaces form a forest, and the order in which they are found does not matter. -/

namespace SysProg.Namespaces

variable {kernel : Kernel} {opts : CmdLineOptions}

/-- The children of an entry, and none where there is no entry. -/
def NamespaceInfo.childrenOf (nsi : NamespaceInfo) (nsid : NamespaceId) : List NamespaceId :=
  ((nsi.nsList nsid).map Namespace.children).getD []

/-- What the list of namespaces is after calls of `addNamespace`. -/
structure Forest (kernel : Kernel) (opts : CmdLineOptions) (calls : List (NamespaceFile × Int))
    (nsi : NamespaceInfo) : Prop where
  /-- The keys are the namespaces that were passed and all their ancestors. -/
  keys : ∀ nsfd : NamespaceFile,
    (nsi.nsList nsfd.val).isSome ↔ Discovered kernel opts calls nsfd
  /-- The special entry exists when it is the parent of some namespace. -/
  special : (nsi.nsList invisUserNS).isSome ↔
    ∃ nsfd, Discovered kernel opts calls nsfd ∧ Ownerless kernel opts nsfd
  /-- A key with a parent is in the list of its parent once, and in no other list. -/
  childOfParent : ∀ nsfd parent, Discovered kernel opts calls nsfd →
    kernel.ioctl opts.ioctlOp nsfd = .ok parent →
      ∀ key, (nsi.childrenOf key).count nsfd.val = if key = parent.val then 1 else 0
  /-- A key without a visible owner is in the list of the special entry once, and in no other. -/
  childOfSpecial : ∀ nsfd, Discovered kernel opts calls nsfd → Ownerless kernel opts nsfd →
    ∀ key, (nsi.childrenOf key).count nsfd.val = if key = invisUserNS then 1 else 0
  /-- The topmost namespaces are in no list. -/
  topmost : ∀ nsfd, Topmost kernel opts nsfd → ∀ key, nsfd.val ∉ nsi.childrenOf key
  /-- The special entry is in no list. -/
  specialTop : ∀ key, invisUserNS ∉ nsi.childrenOf key
  /-- Only keys are in the lists. -/
  children : ∀ key, ∀ child ∈ nsi.childrenOf key, (nsi.nsList child).isSome
  /-- Going from keys to their children never leads back. -/
  acyclic : ∀ nsid,
    ¬ Relation.TransGen (fun key child => child ∈ nsi.childrenOf key) nsid nsid
  /-- The display of the tree below any key ends. -/
  displayed : ∀ nsid level, (nsi.nsList nsid).isSome → ∃ enough lines, ∀ fuel, enough ≤ fuel →
    displayNamespaceTree opts nsi fuel nsid level = .ok lines
  /-- The members are the positive PIDs that were passed. -/
  pids : ∀ nsid ns, nsi.nsList nsid = some ns → ns.pids = members calls nsid

/-- The children of an entry are those that have been found of it. -/
theorem Represents.mem_childrenOf {nsi : NamespaceInfo} {order : List NamespaceId}
    {calls : List (NamespaceFile × Int)} (represents : Represents kernel opts nsi [] order calls)
    {key child : NamespaceId} :
    child ∈ nsi.childrenOf key ↔ child ∈ order ∧ kernel.owner opts child = some key := by
  rw [NamespaceInfo.childrenOf, represents.nsList key]
  -- A namespace that was not found has no entry, and its children were not found either.
  by_cases there : key ∈ order
  · simp [there, entry, Ancestry.mem_children]
  · have absent : ¬ (child ∈ order ∧ kernel.owner opts child = some key) := fun both =>
      there (represents.closed.parents child both.1 key both.2)
    simp [there, absent]

/-- A child is in the list of its parent once, and in no other list. -/
theorem Represents.count_childrenOf {nsi : NamespaceInfo} {order : List NamespaceId}
    {calls : List (NamespaceFile × Int)} (represents : Represents kernel opts nsi [] order calls)
    {child parent : NamespaceId} (there : child ∈ order)
    (owned : kernel.owner opts child = some parent) (key : NamespaceId) :
    (nsi.childrenOf key).count child = if key = parent then 1 else 0 := by
  -- The owner lists the child once, since it was found once.
  split
  · rename_i same
    refine List.count_eq_one_of_mem ?_ (represents.mem_childrenOf.mpr ⟨there, same ▸ owned⟩)
    rw [NamespaceInfo.childrenOf, same, represents.nsList_of_mem
      (represents.closed.parents child there parent owned)]
    exact represents.closed.nodup.filter _
  -- No other namespace lists it, since it has one owner.
  · rename_i other
    refine List.count_eq_zero.mpr fun mem => other ?_
    have found := (represents.mem_childrenOf.mp mem).2
    exact Option.some.inj (found.symm.trans owned)

/-- A list that represents namespaces has no loop among the children. -/
theorem Represents.acyclic {nsi : NamespaceInfo} {order : List NamespaceId}
    {calls : List (NamespaceFile × Int)} (represents : Represents kernel opts nsi [] order calls)
    (nsid : NamespaceId) :
    ¬ Relation.TransGen (fun key child => child ∈ nsi.childrenOf key) nsid nsid := by
  -- Every step goes to a child, and no descendant of a child is above its parent.
  intro loop
  have descend : ∀ {key below}, Relation.TransGen (fun key child => child ∈ nsi.childrenOf key)
      key below → ∃ parent, kernel.owner opts below = some parent ∧
        (hierarchy kernel opts).Above key parent := by
    intro key below path
    induction path with
    | single child => exact ⟨key, (represents.mem_childrenOf.mp child).2, Ancestry.above_self key⟩
    | tail _ child ih =>
      obtain ⟨parent, owned, higher⟩ := ih
      exact ⟨_, (represents.mem_childrenOf.mp child).2,
        higher.trans (Ancestry.above_parent owned)⟩
  obtain ⟨parent, owned, higher⟩ := descend loop
  exact Ancestry.not_above_parent owned higher

/-- Whatever is passed in whatever order, the list of namespaces is a forest with its members. -/
theorem addNamespaces_forest (answers : kernel.Answers opts)
    (calls : List (NamespaceFile × Int)) :
    ∃ nsi, addNamespaces kernel opts .empty calls = .ok nsi ∧ Forest kernel opts calls nsi := by
  -- The map represents what the calls have found, and each part is read off that.
  obtain ⟨nsi, added, represents⟩ := addNamespaces_represents answers calls
  refine ⟨nsi, added, ?_⟩
  constructor
  case keys =>
    intro nsfd
    rw [represents.isSome_iff, mem_found_iff]
  case special => rw [represents.isSome_iff, invisUserNS_mem_found_iff answers]
  case childOfParent =>
    intro nsfd parent discovered found
    exact represents.count_childrenOf (mem_found_iff.mpr discovered) (owner_of_ok found)
  case childOfSpecial =>
    intro nsfd discovered ownerless
    exact represents.count_childrenOf (mem_found_iff.mpr discovered)
      ((ownerless_iff answers nsfd).mp ownerless)
  -- A topmost namespace has no owner, so nobody lists it.
  case topmost =>
    intro nsfd topmost key mem
    have owned := (represents.mem_childrenOf.mp mem).2
    rw [(topmost_iff answers nsfd).mp topmost] at owned
    cases owned
  case specialTop =>
    intro key mem
    have owned := (represents.mem_childrenOf.mp mem).2
    simp at owned
  case children =>
    intro key child mem
    exact (represents.isSome_iff child).mpr (represents.mem_childrenOf.mp mem).1
  case acyclic => exact represents.acyclic
  -- The display follows the tree of what was found.
  case displayed =>
    intro nsid level there
    have listed := (represents.isSome_iff nsid).mp there
    obtain ⟨lines, total, _⟩ := display_tree represents listed level
    exact ⟨_, lines, total⟩
  case pids =>
    intro nsid ns recorded
    have there := (represents.isSome_iff nsid).mp (by rw [recorded]; rfl)
    rw [represents.nsList_of_mem there] at recorded
    cases recorded
    rfl

/-- A kernel with an initial user namespace, its child, and a network namespace in either. -/
def nestedKernel : Kernel where
  nsType nsfd := .ok (if nsfd.val.inode ≤ 2 then cloneNewUser else 0x40000000)
  ownerUid _ := .ok 0
  ioctl _ nsfd :=
    if nsfd.val.inode = 2 then .ok ⟨⟨4, 1⟩, by decide⟩
    else if nsfd.val.inode = 3 then .ok ⟨⟨4, 2⟩, by decide⟩
    else .error .eperm
  wellFounded op := by
    refine Subrelation.wf ?_ (measure fun nsfd : NamespaceFile => nsfd.val.inode.toNat).wf
    intro parent nsfd found
    split at found
    · cases found
      simp_all [InvImage, WellFoundedRelation.rel]
    · split at found
      · cases found
        simp_all [InvImage, WellFoundedRelation.rel]
      · cases found

/-- This kernel answers every question. -/
theorem nestedKernel_answers : nestedKernel.Answers defaultOptions := by
  refine ⟨fun _ => ⟨_, rfl⟩, fun _ _ => ⟨_, rfl⟩, fun nsfd errno failed => ?_⟩
  dsimp only [nestedKernel] at failed
  -- The only error is that of the outermost namespace.
  split at failed
  · cases failed
  · split at failed
    · cases failed
    · exact (Except.error.inj failed).symm

/-- A network namespace, its user namespaces, and a network namespace without a visible owner. -/
theorem addNamespaces_forest_nested :
    ∃ nsi, addNamespaces nestedKernel defaultOptions .empty
        [(⟨⟨4, 3⟩, by decide⟩, 100), (⟨⟨4, 1⟩, by decide⟩, 1), (⟨⟨4, 4⟩, by decide⟩, 100)] =
          .ok nsi ∧
      Forest nestedKernel defaultOptions
        [(⟨⟨4, 3⟩, by decide⟩, 100), (⟨⟨4, 1⟩, by decide⟩, 1), (⟨⟨4, 4⟩, by decide⟩, 100)] nsi :=
  addNamespaces_forest nestedKernel_answers _

/-- Two entries that differ in the order of their members and children only. -/
structure Namespace.Similar (first second : Namespace) : Prop where
  nsType : first.nsType = second.nsType
  creatorUid : first.creatorUid = second.creatorUid
  children : first.children.Perm second.children
  pids : first.pids.Perm second.pids
  /-- The members are printed in sorted order. -/
  sorted : first.pids.mergeSort = second.pids.mergeSort

/-- Two lists with the same keys and similar entries. -/
def NamespaceInfo.Similar (first second : NamespaceInfo) : Prop :=
  ∀ nsid, Option.Rel Namespace.Similar (first.nsList nsid) (second.nsList nsid)

/-- Two outcomes of a scan: similar lists, or the same error. -/
def SimilarOutcome : Except Stop NamespaceInfo → Except Stop NamespaceInfo → Prop
  | .ok first, .ok second => first.Similar second
  | .error first, .error second => first = second
  | _, _ => False

/-- The same lists but for the order have the same sorted form. -/
theorem mergeSort_perm_eq {first second : List Int} (same : first.Perm second) :
    first.mergeSort = second.mergeSort :=
  ((List.mergeSort_perm first _).trans <|
    same.trans (List.mergeSort_perm second _).symm).eq_of_pairwise'
    (List.pairwise_mergeSort' (· ≤ ·) first) (List.pairwise_mergeSort' (· ≤ ·) second)

/-- The calls in another order lead to similar lists. -/
theorem addNamespaces_perm (answers : kernel.Answers opts)
    {first second : List (NamespaceFile × Int)} (same : first.Perm second) :
    ∃ one two, addNamespaces kernel opts .empty first = .ok one ∧
      addNamespaces kernel opts .empty second = .ok two ∧ one.Similar two := by
  obtain ⟨one, addedOne, representsOne⟩ := addNamespaces_represents answers first
  obtain ⟨two, addedTwo, representsTwo⟩ := addNamespaces_represents answers second
  -- Both orders of the calls find the same namespaces.
  have order : (found kernel opts first).Perm (found kernel opts second) :=
    Ancestry.extendAll_perm (same.map _)
  refine ⟨one, two, addedOne, addedTwo, fun nsid => ?_⟩
  rw [representsOne.nsList nsid, representsTwo.nsList nsid]
  simp only [List.not_mem_nil, false_or, order.mem_iff]
  -- The entries agree but for the order of children and of processes, and the processes are sorted.
  split
  · have pids : (members first nsid).Perm (members second nsid) := (same.filter _).map _
    exact .some ⟨rfl, rfl, order.filter _, pids, mergeSort_perm_eq pids⟩
  · exact .none

/-- The threads whose namespaces a scan looks at. -/
def scanned (opts : CmdLineOptions) (proc : Proc) : List Nat :=
  if opts.searchTasks then proc.pids.flatMap fun pid => (proc.tasks pid).getD [] else proc.pids

/-- Something that a scan looks at. -/
inductive Find where
  /-- A symlink of a process or thread. -/
  | link (id : Nat) (nsFile : String)
  /-- A namespace that is pinned into existence. -/
  | pinned (nsfd : NamespaceFile)

/-- What a scan looks at in a process or thread. -/
def findsIn (opts : CmdLineOptions) (proc : Proc) (namespaces : List String) (id : Nat) :
    List Find :=
  namespaces.map (.link id) ++ if opts.deepScan then (proc.pinned id).map .pinned else []

/-- What a scan looks at, in this order. -/
def finds (opts : CmdLineOptions) (proc : Proc) (namespaces : List String) : List Find :=
  (scanned opts proc).flatMap (findsIn opts proc namespaces)

/-- Adds what has been found. -/
def addFind (kernel : Kernel) (opts : CmdLineOptions) (proc : Proc) (nsi : NamespaceInfo) :
    Find → Except Stop NamespaceInfo
  | .link id nsFile => addProcessNamespace kernel opts proc false nsi id nsFile
  | .pinned nsfd => addPinnedNamespace kernel opts nsi nsfd

/-- Running through a list of lists is running through all their elements. -/
theorem foldlM_flatMap {α β γ ε : Type} (action : γ → β → Except ε γ) (parts : α → List β)
    (xs : List α) (state : γ) :
    (xs.flatMap parts).foldlM action state =
      xs.foldlM (fun state x => (parts x).foldlM action state) state := by
  -- By induction on the list whose parts are folded.
  induction xs generalizing state with
  | nil => rfl
  | cons x xs ih =>
    rw [List.flatMap_cons, List.foldlM_append, List.foldlM_cons]
    simp only [ih]

/-- Adding the namespaces of one process or thread is adding what is found there. -/
theorem addTheNamespaces_eq (proc : Proc) (namespaces : List String) (nsi : NamespaceInfo)
    (id : Nat) : addTheNamespaces kernel opts proc namespaces nsi id =
      (findsIn opts proc namespaces id).foldlM (addFind kernel opts proc) nsi := by
  -- The symbolic links first, and then the pinned files, as in the source.
  rw [addTheNamespaces, findsIn, List.foldlM_append, List.foldlM_map]
  congr 1
  funext nsi
  split
  · rw [addPinnedNamespaces, List.foldlM_map]
    rfl
  · rfl

/-- A scan adds what it finds one after the other. -/
theorem addNamespacesForAllProcesses_eq (proc : Proc) (namespaces : List String)
    (nsi : NamespaceInfo) : addNamespacesForAllProcesses kernel opts proc namespaces nsi =
      (finds opts proc namespaces).foldlM (addFind kernel opts proc) nsi := by
  rw [finds, foldlM_flatMap, addNamespacesForAllProcesses, scanned]
  simp only [← addTheNamespaces_eq]
  -- With the option, the tasks of each process are scanned in its place.
  by_cases tasks : opts.searchTasks = true
  · rw [if_pos tasks, foldlM_flatMap]
    congr 1
    funext nsi pid
    rw [addNamespacesForOneProcess, if_pos tasks]
    cases proc.tasks pid <;> rfl
  · rw [if_neg tasks]
    congr 1
    funext nsi pid
    rw [addNamespacesForOneProcess, if_neg tasks]

/-- The call to which something found leads, unless the symlink cannot be opened. -/
def Find.call (proc : Proc) : Find → Option (NamespaceFile × Int)
  | .link id nsFile => (proc.open_ id nsFile).toOption.map fun nsfd => (nsfd, (id : Int))
  | .pinned nsfd => some (nsfd, -1)

/-- The program lacks the permission to open this symlink. -/
def Find.Denied (proc : Proc) : Find → Prop
  | .link id nsFile => proc.open_ id nsFile = .error .eacces
  | .pinned _ => False

/-- What can be opened is added with a call. -/
theorem addFind_of_call {proc : Proc} {find : Find} {call : NamespaceFile × Int}
    (opened : find.call proc = some call) (nsi : NamespaceInfo) :
    addFind kernel opts proc nsi find = (do
      let (nsi, _) ← addNamespace kernel opts nsi call.1 call.2
      return nsi) := by
  -- A pinned file is open already; a link is opened first.
  cases find with
  | pinned nsfd =>
    cases opened
    rfl
  | link id nsFile =>
    rw [addFind, addProcessNamespace]
    cases result : proc.open_ id nsFile with
    | ok nsfd =>
      obtain rfl : (nsfd, (id : Int)) = call := by
        simpa [Find.call, result, Except.toOption] using opened
      rfl
    | error errno => simp [Find.call, result, Except.toOption] at opened

/-- What cannot be opened is skipped, or ends the program. -/
theorem addFind_of_no_call {proc : Proc} {find : Find} (closed : find.call proc = none)
    (nsi : NamespaceInfo) :
    (find.Denied proc → addFind kernel opts proc nsi find = .error .cannotOpen) ∧
      (¬ find.Denied proc → addFind kernel opts proc nsi find = .ok nsi) := by
  -- A link that cannot be opened is passed, unless permission was denied.
  cases find with
  | pinned nsfd => cases closed
  | link id nsFile =>
    rw [addFind, addProcessNamespace, Find.Denied]
    cases result : proc.open_ id nsFile with
    | ok nsfd => simp [Find.call, result, Except.toOption] at closed
    | error errno => cases errno <;> simp

/-- What is denied leads to no call. -/
theorem Find.Denied.call {proc : Proc} {find : Find} (denied : find.Denied proc) :
    find.call proc = none := by
  -- Only a link is opened.
  cases find with
  | pinned nsfd => cases denied
  | link id nsFile =>
    rw [Find.call, show proc.open_ id nsFile = _ from denied]
    rfl

/-- Without a denial, a scan makes the calls to which its finds lead. -/
theorem foldlM_of_allowed {proc : Proc} {finds : List Find}
    (allowed : ∀ find ∈ finds, ¬ find.Denied proc) (nsi : NamespaceInfo) :
    finds.foldlM (addFind kernel opts proc) nsi =
      addNamespaces kernel opts nsi (finds.filterMap (Find.call proc)) := by
  -- By induction on what is found: a call where it can be opened, and nothing otherwise.
  induction finds generalizing nsi with
  | nil => rfl
  | cons find finds ih =>
    have rest := ih fun other mem => allowed other (List.mem_cons_of_mem _ mem)
    rw [List.foldlM_cons, List.filterMap_cons]
    cases result : find.call proc with
    | some call =>
      rw [addFind_of_call result, addNamespaces, List.foldlM_cons]
      simp only [rest]
      rfl
    | none =>
      rw [(addFind_of_no_call result nsi).2 (allowed find List.mem_cons_self)]
      exact rest nsi

/-- A denial ends the program, whatever has been found before. -/
theorem foldlM_of_denied (answers : kernel.Answers opts) {proc : Proc} {finds : List Find}
    (denied : ∃ find ∈ finds, find.Denied proc) {nsi : NamespaceInfo}
    {order : List NamespaceId} {calls : List (NamespaceFile × Int)}
    (represents : Represents kernel opts nsi [] order calls) :
    finds.foldlM (addFind kernel opts proc) nsi = .error .cannotOpen := by
  -- What is found before it never stops the program for another reason.
  induction finds generalizing nsi order calls with
  | nil => simp at denied
  | cons find finds ih =>
    rw [List.foldlM_cons]
    by_cases here : find.Denied proc
    · rw [(addFind_of_no_call here.call nsi).1 here]
      rfl
    · have rest : ∃ find ∈ finds, find.Denied proc := by simpa [here] using denied
      cases result : find.call proc with
      | some call =>
        obtain ⟨next, added, after⟩ := addNamespace_represents answers represents call.1 call.2
        rw [addFind_of_call result, added]
        exact ih rest after
      | none =>
        rw [(addFind_of_no_call result nsi).2 here]
        exact ih rest represents

/-- Two views of `/proc` that differ in the order of the entries only. -/
structure Proc.SameEntries (first second : Proc) : Prop where
  pids : first.pids.Perm second.pids
  tasks : ∀ pid, ((first.tasks pid).getD []).Perm ((second.tasks pid).getD [])
  open_ : first.open_ = second.open_
  pinned : ∀ pid, (first.pinned pid).Perm (second.pinned pid)

/-- The same is looked at in another order. -/
theorem finds_perm {first second : Proc} (same : first.SameEntries second)
    {names others : List String} (names_ : names.Perm others) :
    (finds opts first names).Perm (finds opts second others) := by
  -- The same processes are scanned, and the same tasks of each.
  have ids : (scanned opts first).Perm (scanned opts second) := by
    rw [scanned, scanned]
    split
    · exact same.pids.flatMap fun pid _ => same.tasks pid
    · exact same.pids
  refine ids.flatMap fun id _ => (names_.map _).append ?_
  split
  · exact (same.pinned id).map _
  · rfl

/-- Neither the order of the calls nor that of `/proc` or of the symlinks changes the forest. -/
theorem scan_order_independent (answers : kernel.Answers opts) :
    (∀ first second : List (NamespaceFile × Int), first.Perm second →
      ∃ one two, addNamespaces kernel opts .empty first = .ok one ∧
        addNamespaces kernel opts .empty second = .ok two ∧ one.Similar two) ∧
    ∀ first second : Proc, first.SameEntries second →
      ∀ names others : List String, names.Perm others →
        SimilarOutcome (addNamespacesForAllProcesses kernel opts first names .empty)
          (addNamespacesForAllProcesses kernel opts second others .empty) := by
  refine ⟨fun first second same => addNamespaces_perm answers same, ?_⟩
  intro first second same names others names_
  have perm : (finds opts first names).Perm (finds opts second others) := finds_perm same names_
  have denied : ∀ find, Find.Denied first find ↔ Find.Denied second find := by
    intro find
    cases find <;> simp only [Find.Denied, same.open_]
  have call : Find.call first = Find.call second := by
    funext find
    cases find <;> simp only [Find.call, same.open_]
  rw [addNamespacesForAllProcesses_eq, addNamespacesForAllProcesses_eq]
  -- A denied open ends either scan; without one, both add the same calls.
  by_cases some_ : ∃ find ∈ finds opts first names, find.Denied first
  · have other : ∃ find ∈ finds opts second others, find.Denied second := by
      obtain ⟨find, mem, here⟩ := some_
      exact ⟨find, perm.mem_iff.mp mem, (denied find).mp here⟩
    rw [foldlM_of_denied answers some_ (represents_empty kernel opts),
      foldlM_of_denied answers other (represents_empty kernel opts)]
    rfl
  · rw [foldlM_of_allowed fun find mem here => some_ ⟨find, mem, here⟩,
      foldlM_of_allowed fun find mem here =>
        some_ ⟨find, perm.mem_iff.mpr mem, (denied find).mpr here⟩]
    obtain ⟨one, two, addedOne, addedTwo, similar⟩ :=
      addNamespaces_perm answers (perm.filterMap (Find.call first))
    rw [addedOne, ← call, addedTwo]
    exact similar

/-- A network namespace and its owner in either order. -/
theorem scan_order_independent_nested :
    ∃ one two,
      addNamespaces nestedKernel defaultOptions .empty
        [(⟨⟨4, 3⟩, by decide⟩, 100), (⟨⟨4, 1⟩, by decide⟩, 1)] = .ok one ∧
      addNamespaces nestedKernel defaultOptions .empty
        [(⟨⟨4, 1⟩, by decide⟩, 1), (⟨⟨4, 3⟩, by decide⟩, 100)] = .ok two ∧ one.Similar two :=
  (scan_order_independent nestedKernel_answers).1 _ _ (.swap _ _ _)

end SysProg.Namespaces
