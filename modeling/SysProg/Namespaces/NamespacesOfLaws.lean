import SysProg.Namespaces.NamespacesOf

/-! The list of namespaces is the forest of those that were added and all their ancestors. -/

namespace SysProg.Namespaces

/-- Changing an entry that exists. -/
theorem NamespaceInfo.modify_of_some {nsi : NamespaceInfo} {nsid : NamespaceId} {ns : Namespace}
    (present : nsi.nsList nsid = some ns) (change : Namespace → Namespace) :
    nsi.modify nsid change = .ok (nsi.set nsid (change ns)) := by
  rw [modify, present]

/-- The kernel knows every namespace, and refuses an operation only where nothing is visible. -/
structure Kernel.Answers (kernel : Kernel) (opts : CmdLineOptions) : Prop where
  nsType : ∀ nsfd, ∃ nsType, kernel.nsType nsfd = .ok nsType
  ownerUid : ∀ nsfd, kernel.nsType nsfd = .ok cloneNewUser →
    ∃ uid, kernel.ownerUid nsfd = .ok uid
  onlyEperm : ∀ nsfd errno, kernel.ioctl opts.ioctlOp nsfd = .error errno → errno = .eperm

/-- The type of a namespace, where the special entry counts as a user namespace. -/
def Kernel.typeOf (kernel : Kernel) (nsid : NamespaceId) : Nat :=
  if visible : nsid ≠ invisUserNS then (kernel.nsType ⟨nsid, visible⟩).toOption.getD 0
  else cloneNewUser

/-- The creator of a user namespace. -/
def Kernel.uidOf (kernel : Kernel) (nsid : NamespaceId) : Int :=
  if visible : nsid ≠ invisUserNS then
    if kernel.typeOf nsid = cloneNewUser then
      (kernel.ownerUid ⟨nsid, visible⟩).toOption.getD 0
    else 0
  else 0

/-- Nobody is visible above this namespace, and it is of the kind that may be topmost. -/
def Kernel.mayBeTop (kernel : Kernel) (opts : CmdLineOptions) (nsid : NamespaceId) : Bool :=
  kernel.typeOf nsid = cloneNewUser ∨ opts.ioctlOp = .getParent

/-- The parent or owner of a namespace, where the special entry owns those without a visible one. -/
def Kernel.owner (kernel : Kernel) (opts : CmdLineOptions) (nsid : NamespaceId) :
    Option NamespaceId :=
  if visible : nsid ≠ invisUserNS then
    match kernel.ioctl opts.ioctlOp ⟨nsid, visible⟩ with
    | .ok parent => some parent.val
    | .error _ => if kernel.mayBeTop opts nsid then none else some invisUserNS
  else none

variable {kernel : Kernel} {opts : CmdLineOptions}

/-- The special entry has no owner. -/
@[simp] theorem owner_invisUserNS : kernel.owner opts invisUserNS = none := by
  simp [Kernel.owner]

/-- The parent or owner that the kernel knows. -/
theorem owner_of_ok {nsfd parent : NamespaceFile}
    (found : kernel.ioctl opts.ioctlOp nsfd = .ok parent) :
    kernel.owner opts nsfd.val = some parent.val := by
  rw [Kernel.owner, dif_pos nsfd.property]
  simp only [Subtype.coe_eta, found]

/-- The owner of a namespace above which nothing is visible. -/
theorem owner_of_error {nsfd : NamespaceFile} {errno : Errno}
    (failed : kernel.ioctl opts.ioctlOp nsfd = .error errno) :
    kernel.owner opts nsfd.val =
      if kernel.mayBeTop opts nsfd.val then none else some invisUserNS := by
  rw [Kernel.owner, dif_pos nsfd.property]
  simp only [Subtype.coe_eta, failed]

/-- There is no endless line of owners. -/
theorem owner_wellFounded (kernel : Kernel) (opts : CmdLineOptions) :
    WellFounded fun above below => kernel.owner opts below = some above := by
  -- The special entry has no owner; the others follow the kernel.
  have special : Acc (fun above below => kernel.owner opts below = some above) invisUserNS :=
    ⟨_, fun above owned => by simp at owned⟩
  have visible : ∀ nsfd : NamespaceFile,
      Acc (fun above below => kernel.owner opts below = some above) nsfd.val := by
    intro nsfd
    induction nsfd using (kernel.wellFounded opts.ioctlOp).induction with
    | _ nsfd ih =>
      refine ⟨_, fun above owned => ?_⟩
      cases found : kernel.ioctl opts.ioctlOp nsfd with
      | ok parent =>
        rw [owner_of_ok found] at owned
        exact Option.some.inj owned ▸ ih parent found
      | error errno =>
        rw [owner_of_error found] at owned
        split at owned
        · cases owned
        · exact Option.some.inj owned ▸ special
  refine ⟨fun nsid => ?_⟩
  by_cases here : nsid = invisUserNS
  · exact here ▸ special
  · exact visible ⟨nsid, here⟩

/-- The hierarchy of the namespaces. -/
def hierarchy (kernel : Kernel) (opts : CmdLineOptions) : Ancestry NamespaceId where
  parent := kernel.owner opts
  wellFounded := owner_wellFounded kernel opts

/-- The parents in the hierarchy. -/
@[simp] theorem hierarchy_parent (nsid : NamespaceId) :
    (hierarchy kernel opts).parent nsid = kernel.owner opts nsid :=
  rfl

/-- The special entry is at the top of the hierarchy. -/
theorem hierarchy_invisUserNS (kernel : Kernel) (opts : CmdLineOptions) :
    (hierarchy kernel opts).parent invisUserNS = none := by
  simp

/-- The members that calls have added to a namespace. -/
def members (calls : List (NamespaceFile × Int)) (nsid : NamespaceId) : List Int :=
  (calls.filter fun call => call.1.val = nsid ∧ 0 < call.2).map Prod.snd

/-- The entry of a namespace, when these have been found and these calls been made. -/
def entry (kernel : Kernel) (opts : CmdLineOptions) (order : List NamespaceId)
    (calls : List (NamespaceFile × Int)) (nsid : NamespaceId) : Namespace where
  nsType := kernel.typeOf nsid
  pids := members calls nsid
  children := (hierarchy kernel opts).children order nsid
  creatorUid := kernel.uidOf nsid

/-- The topmost namespaces among those that have been found. -/
def tops (kernel : Kernel) (opts : CmdLineOptions) (order : List NamespaceId) :
    List NamespaceId :=
  order.filter fun nsid => nsid ≠ invisUserNS ∧ kernel.owner opts nsid = none

/--
The list of namespaces that represents these namespaces, found in this order, and these calls.

The pending ones have been entered and are not children of their parents yet.
-/
structure Represents (kernel : Kernel) (opts : CmdLineOptions) (nsi : NamespaceInfo)
    (pending order : List NamespaceId) (calls : List (NamespaceFile × Int)) : Prop where
  closed : (hierarchy kernel opts).Closed order
  called : ∀ call ∈ calls, call.1.val ∈ order
  nsList : ∀ nsid, nsi.nsList nsid =
    if nsid ∈ pending ∨ nsid ∈ order then some (entry kernel opts order calls nsid) else none
  rootNS : nsi.rootNS = (tops kernel opts order).getLast?.getD invisUserNS

/-- Nothing has been found before the first call. -/
theorem represents_empty (kernel : Kernel) (opts : CmdLineOptions) :
    Represents kernel opts .empty [] [] [] := by
  refine ⟨Ancestry.closed_nil, nofun, fun nsid => ?_, rfl⟩
  simp [NamespaceInfo.empty]

/-- A namespace that has not been found has neither members nor children. -/
theorem entry_new {nsi : NamespaceInfo} {pending order : List NamespaceId}
    {calls : List (NamespaceFile × Int)}
    (represents : Represents kernel opts nsi pending order calls)
    {nsid : NamespaceId} (new : nsid ∉ order) :
    entry kernel opts order calls nsid =
      { Namespace.new with nsType := kernel.typeOf nsid, creatorUid := kernel.uidOf nsid } := by
  -- A namespace that has not been found is no call's, so it has no members.
  have nobody : members calls nsid = [] := by
    rw [members, List.filter_eq_nil_iff.mpr, List.map_nil]
    rintro call called
    have elsewhere : call.1.val ≠ nsid := fun here => new (here ▸ represents.called call called)
    simp [elsewhere]
  -- It has no children either, for the owner of one found is found, too.
  have childless : (hierarchy kernel opts).children order nsid = [] :=
    List.eq_nil_iff_forall_not_mem.mpr fun other mem => new <|
      represents.closed.parents other (Ancestry.mem_children.mp mem).1 nsid
        (Ancestry.mem_children.mp mem).2
  rw [entry, nobody, childless]
  rfl

/-- Entering a new namespace makes it pending. -/
theorem Represents.enter {nsi : NamespaceInfo} {pending order : List NamespaceId}
    {calls : List (NamespaceFile × Int)}
    (represents : Represents kernel opts nsi pending order calls)
    {nsid : NamespaceId} (new : nsid ∉ order) :
    Represents kernel opts (nsi.set nsid
      { Namespace.new with nsType := kernel.typeOf nsid, creatorUid := kernel.uidOf nsid })
      (nsid :: pending) order calls := by
  -- The new entry is the only one that changes.
  refine { represents with nsList := fun other => ?_ }
  by_cases here : other = nsid
  · subst here
    simp [NamespaceInfo.set, entry_new represents new]
  · simp [NamespaceInfo.set, here, represents.nsList other]

/-- A pending namespace that has no owner becomes one that has been found. -/
theorem Represents.found_top {nsi next : NamespaceInfo} {pending order : List NamespaceId}
    {calls : List (NamespaceFile × Int)} {nsid : NamespaceId}
    (represents : Represents kernel opts nsi (nsid :: pending) order calls) (new : nsid ∉ order)
    (top : kernel.owner opts nsid = none) (same : next.nsList = nsi.nsList)
    (root : next.rootNS = if nsid = invisUserNS then nsi.rootNS else nsid) :
    Represents kernel opts next pending (order ++ [nsid]) calls := by
  -- A namespace without an owner is nobody's child.
  refine ⟨represents.closed.append new (by simp [hierarchy, top]), fun call called =>
    List.mem_append_left _ (represents.called call called), fun other => ?_, ?_⟩
  · have children : entry kernel opts (order ++ [nsid]) calls other =
        entry kernel opts order calls other := by
      simp [entry, Ancestry.children_append, top]
    rw [same, represents.nsList other, children]
    simp only [List.mem_cons, List.mem_append, List.not_mem_nil, or_false]
    congr 1
    simp only [eq_iff_iff]
    tauto
  · rw [root]
    -- Only a namespace other than the special entry becomes the root.
    by_cases special : nsid = invisUserNS
    · simp [special, tops, List.filter_append, represents.rootNS]
    · simp [special, tops, List.filter_append, top]

/-- A pending namespace whose owner has been found becomes one that has been found. -/
theorem Represents.found_child {nsi : NamespaceInfo} {pending order : List NamespaceId}
    {calls : List (NamespaceFile × Int)} {nsid parent : NamespaceId}
    (represents : Represents kernel opts nsi (nsid :: pending) order calls) (new : nsid ∉ order)
    (owned : kernel.owner opts nsid = some parent) (there : parent ∈ order) :
    ∃ next, nsi.addChild parent nsid = .ok next ∧
      Represents kernel opts next pending (order ++ [nsid]) calls := by
  -- The owner has an entry, so the child is appended to that one.
  have present := represents.nsList parent
  rw [if_pos (.inr there)] at present
  refine ⟨_, NamespaceInfo.modify_of_some present _,
    represents.closed.append new ?_, fun call called =>
      List.mem_append_left _ (represents.called call called), fun other => ?_, ?_⟩
  · intro above found
    rw [show kernel.owner opts nsid = some above from found] at owned
    exact Option.some.inj owned ▸ there
  -- The owner's entry gets the child, and the other entries stay as they are.
  · by_cases here : other = parent
    · subst here
      simp [NamespaceInfo.set, there, entry, Ancestry.children_append, owned]
    · have children : entry kernel opts (order ++ [nsid]) calls other =
          entry kernel opts order calls other := by
        simp [entry, Ancestry.children_append, owned, Ne.symm here]
      rw [children]
      simp only [NamespaceInfo.set, Function.update_of_ne here, represents.nsList other,
        List.mem_cons, List.mem_append, List.not_mem_nil, or_false]
      congr 1
      simp only [eq_iff_iff]
      tauto
  · simp [NamespaceInfo.set, represents.rootNS, tops, List.filter_append, owned]

/-- Adding a member to a namespace that has been found. -/
theorem Represents.member {nsi : NamespaceInfo} {pending order : List NamespaceId}
    {calls : List (NamespaceFile × Int)} {nsfd : NamespaceFile}
    (represents : Represents kernel opts nsi pending order calls) (pid : Int)
    (there : nsfd.val ∈ order) :
    ∃ next, nsi.addMember nsfd.val pid = .ok next ∧
      Represents kernel opts next pending order (calls ++ [(nsfd, pid)]) := by
  -- The namespace has an entry, so the process is appended to that one.
  have present := represents.nsList nsfd.val
  rw [if_pos (.inr there)] at present
  have called : ∀ call ∈ calls ++ [(nsfd, pid)], call.1.val ∈ order := by
    intro call mem
    rcases List.mem_append.mp mem with old | last
    · exact represents.called call old
    · exact List.mem_singleton.mp last ▸ there
  -- A call without a process, for an ancestor, adds no member.
  by_cases positive : 0 < pid
  · refine ⟨_, (if_pos positive).trans (NamespaceInfo.modify_of_some present _),
      represents.closed, called, fun other => ?_, represents.rootNS⟩
    by_cases here : other = nsfd.val
    · subst here
      simp [NamespaceInfo.set, there, entry, members, List.filter_append, positive]
    · have stays : members (calls ++ [(nsfd, pid)]) other = members calls other := by
        simp [members, List.filter_append, Ne.symm here]
      simp only [NamespaceInfo.set, Function.update_of_ne here, represents.nsList other, entry,
        stays]
  · refine ⟨nsi, if_neg positive, represents.closed, called, fun other => ?_,
      represents.rootNS⟩
    have stays : members (calls ++ [(nsfd, pid)]) other = members calls other := by
      simp [members, List.filter_append, positive]
    simp only [represents.nsList other, entry, stays]

/-- What the kernel answers about the type of a namespace. -/
theorem Kernel.Answers.typeOf (answers : kernel.Answers opts) (nsfd : NamespaceFile) :
    kernel.nsType nsfd = .ok (kernel.typeOf nsfd.val) := by
  -- The type is what ioctl() answers.
  obtain ⟨nsType, answer⟩ := answers.nsType nsfd
  rw [Kernel.typeOf, dif_pos nsfd.property]
  simp only [Subtype.coe_eta, answer]
  rfl

/-- The type of a namespace can be recorded. -/
theorem Kernel.Answers.namespaceType (answers : kernel.Answers opts) (nsfd : NamespaceFile) :
    namespaceType kernel nsfd = .ok (kernel.typeOf nsfd.val) := by
  rw [Namespaces.namespaceType, answers.typeOf]
  rfl

/-- The creator of a user namespace can be recorded. -/
theorem Kernel.Answers.getCreatorUid (answers : kernel.Answers opts) (nsfd : NamespaceFile) :
    getCreatorUid kernel (kernel.typeOf nsfd.val) nsfd = .ok (kernel.uidOf nsfd.val) := by
  rw [Kernel.uidOf, dif_pos nsfd.property, Namespaces.getCreatorUid]
  -- Only a user namespace is asked for its creator.
  split
  · rename_i user
    obtain ⟨uid, answer⟩ := answers.ownerUid nsfd (by rw [answers.typeOf, user])
    simp only [Subtype.coe_eta, answer]
    rfl
  · rfl

/-- The entry with which a new namespace starts. -/
def NamespaceInfo.enter (nsi : NamespaceInfo) (kernel : Kernel) (nsid : NamespaceId) :
    NamespaceInfo :=
  nsi.set nsid
    { Namespace.new with nsType := kernel.typeOf nsid, creatorUid := kernel.uidOf nsid }

/-- A namespace whose parent is visible becomes its child after the parent has been added. -/
theorem addNamespaceToList_of_ok (answers : kernel.Answers opts) {nsi : NamespaceInfo}
    {nsfd parent : NamespaceFile} (found : kernel.ioctl opts.ioctlOp nsfd = .ok parent) :
    addNamespaceToList kernel opts nsi nsfd =
      (if ((nsi.enter kernel nsfd.val).nsList parent.val).isSome then
          .ok (nsi.enter kernel nsfd.val)
        else addNamespaceToList kernel opts (nsi.enter kernel nsfd.val) parent).bind
      fun nsi => nsi.addChild parent.val nsfd.val := by
  -- The type and the creator are asked for first, as in the source.
  rw [addNamespaceToList, answers.namespaceType]
  simp only [bind, Except.bind, answers.getCreatorUid]
  split
  · rename_i failed
    simp [found] at failed
  · rename_i failed
    simp [found] at failed
  -- ioctl() has returned the parent: it is added first, unless it is known, and then gets the
  -- child.
  · rename_i other same
    obtain rfl : other = parent := by simpa [found] using same.symm
    rw [addNamespace]
    simp only [bind, Except.bind, NamespaceInfo.enter]
    -- Through addNamespace(), with a process number of 0.
    by_cases known : ((nsi.set nsfd.val { Namespace.new with
        nsType := kernel.typeOf nsfd.val,
        creatorUid := kernel.uidOf nsfd.val }).nsList other.val).isSome = true
    · simp only [known, if_true]
      rfl
    · simp only [known]
      generalize addNamespaceToList kernel opts _ other = added
      cases added <;> rfl

/-- A namespace above which nothing is visible is topmost, or a child of the special entry. -/
theorem addNamespaceToList_of_error (answers : kernel.Answers opts) {nsi : NamespaceInfo}
    {nsfd : NamespaceFile} {errno : Errno}
    (failed : kernel.ioctl opts.ioctlOp nsfd = .error errno) :
    addNamespaceToList kernel opts nsi nsfd =
      if kernel.mayBeTop opts nsfd.val then
        .ok { nsi.enter kernel nsfd.val with rootNS := nsfd.val }
      else (nsi.enter kernel nsfd.val).withInvisUserNS.addChild invisUserNS nsfd.val := by
  -- The only error that ioctl() answers with is EPERM.
  obtain rfl := answers.onlyEperm nsfd errno failed
  rw [addNamespaceToList, answers.namespaceType]
  simp only [bind, Except.bind, answers.getCreatorUid]
  split
  -- It is a root, or it is put below the special entry for what is not visible.
  · simp only [Kernel.mayBeTop, decide_eq_true_eq]
    rfl
  · rename_i notEperm same
    simp [failed] at same
    exact absurd same.symm notEperm
  · rename_i parent found
    simp [failed] at found

/-- Adding a new namespace to the list finds it and its ancestors. -/
theorem addNamespaceToList_represents (answers : kernel.Answers opts) (nsfd : NamespaceFile)
    {nsi : NamespaceInfo} {pending order : List NamespaceId} {calls : List (NamespaceFile × Int)}
    (represents : Represents kernel opts nsi pending order calls) (new : nsfd.val ∉ order)
    (apart : ∀ other ∈ pending, ¬ (hierarchy kernel opts).Above other nsfd.val) :
    ∃ next, addNamespaceToList kernel opts nsi nsfd = .ok next ∧
      Represents kernel opts next pending
        ((hierarchy kernel opts).extend order nsfd.val) calls := by
  -- The pending namespaces are all below this one, so no ancestor is taken for found by mistake.
  induction nsfd using (kernel.wellFounded opts.ioctlOp).induction generalizing nsi pending with
  | _ nsfd ih =>
    have entered : Represents kernel opts (nsi.enter kernel nsfd.val) (nsfd.val :: pending) order
        calls := represents.enter new
    cases found : kernel.ioctl opts.ioctlOp nsfd with
    | ok parent =>
      have owned : (hierarchy kernel opts).parent nsfd.val = some parent.val := owner_of_ok found
      have apart_ : ∀ other ∈ nsfd.val :: pending,
          ¬ (hierarchy kernel opts).Above other parent.val := by
        intro other mem higher
        rcases List.mem_cons.mp mem with rfl | waiting
        · exact Ancestry.not_above_parent owned higher
        · exact apart other waiting ((Ancestry.above_of_parent owned).mpr (.inr higher))
      have unfound : parent.val ∉ nsfd.val :: pending := fun waiting =>
        apart_ _ waiting (Ancestry.above_self _)
      obtain ⟨middle, added, found_⟩ : ∃ middle,
          (if ((nsi.enter kernel nsfd.val).nsList parent.val).isSome then
            .ok (nsi.enter kernel nsfd.val)
          else addNamespaceToList kernel opts (nsi.enter kernel nsfd.val) parent) = .ok middle ∧
          Represents kernel opts middle (nsfd.val :: pending)
            ((hierarchy kernel opts).extend order parent.val) calls := by
        rw [entered.nsList parent.val]
        by_cases known : parent.val ∈ order
        · rw [Ancestry.extend_of_mem represents.closed known]
          exact ⟨_, by simp [known], entered⟩
        · simp only [unfound, known, or_self, if_false, Option.isSome_none, Bool.false_eq_true]
          exact ih parent found entered known apart_
      rw [addNamespaceToList_of_ok answers found, added, Ancestry.extend_of_parent new owned]
      exact found_.found_child (Ancestry.not_mem_extend_parent new owned) owned
        (Ancestry.mem_extend.mpr (.inr (Ancestry.above_self _)))
    | error errno =>
      have owner := owner_of_error found
      rw [addNamespaceToList_of_error answers found]
      by_cases top : kernel.mayBeTop opts nsfd.val = true
      · rw [if_pos top] at owner ⊢
        rw [Ancestry.extend_of_top new owner]
        exact ⟨_, rfl, entered.found_top new owner rfl (by simp [nsfd.property])⟩
      · rw [if_neg top] at owner ⊢
        have unfound : invisUserNS ∉ nsfd.val :: pending := by
          intro mem
          rcases List.mem_cons.mp mem with same | waiting
          · exact nsfd.property same.symm
          · exact apart _ waiting (Ancestry.above_parent owner)
        have special : Represents kernel opts (nsi.enter kernel nsfd.val).withInvisUserNS
            (nsfd.val :: pending) ((hierarchy kernel opts).extend order invisUserNS) calls := by
          rw [NamespaceInfo.withInvisUserNS, entered.nsList invisUserNS]
          by_cases known : invisUserNS ∈ order
          · simpa [known, Ancestry.extend_of_mem represents.closed known] using entered
          · rw [Ancestry.extend_of_top known (hierarchy_invisUserNS kernel opts)]
            have typed : kernel.typeOf invisUserNS = cloneNewUser := by simp [Kernel.typeOf]
            have created : kernel.uidOf invisUserNS = 0 := by simp [Kernel.uidOf]
            have added := (entered.enter known).found_top known
              (hierarchy_invisUserNS kernel opts) rfl rfl
            simpa [known, unfound, typed, created, Namespace.new] using added
        rw [Ancestry.extend_of_parent new owner]
        exact special.found_child (Ancestry.not_mem_extend_parent new owner) owner
          (Ancestry.mem_extend.mpr (.inr (Ancestry.above_self _)))

/-- Adding a namespace finds it and its ancestors, and records the process. -/
theorem addNamespace_represents (answers : kernel.Answers opts) {nsi : NamespaceInfo}
    {order : List NamespaceId} {calls : List (NamespaceFile × Int)}
    (represents : Represents kernel opts nsi [] order calls) (nsfd : NamespaceFile) (pid : Int) :
    ∃ next, addNamespace kernel opts nsi nsfd pid = .ok (next, nsfd.val) ∧
      Represents kernel opts next [] ((hierarchy kernel opts).extend order nsfd.val)
        (calls ++ [(nsfd, pid)]) := by
  -- First the namespace and its ancestors are added, unless they are known.
  obtain ⟨middle, added, found⟩ : ∃ middle,
      (if (nsi.nsList nsfd.val).isSome then .ok nsi
        else addNamespaceToList kernel opts nsi nsfd) = .ok middle ∧
      Represents kernel opts middle [] ((hierarchy kernel opts).extend order nsfd.val) calls := by
    rw [represents.nsList nsfd.val]
    by_cases known : nsfd.val ∈ order
    · rw [Ancestry.extend_of_mem represents.closed known]
      exact ⟨nsi, by simp [known], represents⟩
    · simpa [known] using addNamespaceToList_represents answers nsfd represents known nofun
  -- Then the process becomes a member.
  obtain ⟨next, joined, member⟩ := found.member pid
    (Ancestry.mem_extend.mpr (.inr (Ancestry.above_self nsfd.val)))
  refine ⟨next, ?_, member⟩
  rw [addNamespace]
  simp only [added, bind, Except.bind, joined]
  rfl

/-- The namespaces that calls have found, in the order in which they were found. -/
def found (kernel : Kernel) (opts : CmdLineOptions) (calls : List (NamespaceFile × Int)) :
    List NamespaceId :=
  (hierarchy kernel opts).extendAll [] (calls.map fun call => call.1.val)

/-- Adding namespaces one after the other finds them and their ancestors. -/
theorem addNamespaces_represents (answers : kernel.Answers opts)
    (calls : List (NamespaceFile × Int)) :
    ∃ nsi, addNamespaces kernel opts .empty calls = .ok nsi ∧
      Represents kernel opts nsi [] (found kernel opts calls) calls := by
  -- Induction over the calls, the last one first.
  induction calls using List.reverseRecOn with
  | nil => exact ⟨.empty, rfl, represents_empty kernel opts⟩
  | append_singleton calls call ih =>
    obtain ⟨nsi, before, represents⟩ := ih
    obtain ⟨next, added, after⟩ := addNamespace_represents answers represents call.1 call.2
    refine ⟨next, ?_, ?_⟩
    · rw [addNamespaces, List.foldlM_append, ← addNamespaces, before]
      simp only [List.foldlM_cons, List.foldlM_nil, bind, Except.bind, added]
      rfl
    · simpa [found, Ancestry.extendAll] using after

variable (kernel opts) in
/-- Following the parents or owners that the kernel answers leads from one to the other. -/
def Leads (nsfd above : NamespaceFile) : Prop :=
  Relation.ReflTransGen
    (fun below parent => kernel.ioctl opts.ioctlOp below = .ok parent) nsfd above

variable (kernel opts) in
/-- A namespace that was passed to `addNamespace`, or an ancestor of one. -/
def Discovered (calls : List (NamespaceFile × Int)) (nsfd : NamespaceFile) : Prop :=
  ∃ call ∈ calls, Leads kernel opts call.1 nsfd

variable (kernel opts) in
/-- A topmost visible user namespace, or a topmost visible PID namespace in its hierarchy. -/
def Topmost (nsfd : NamespaceFile) : Prop :=
  kernel.ioctl opts.ioctlOp nsfd = .error .eperm ∧
    (kernel.nsType nsfd = .ok cloneNewUser ∨ opts.showPidnsHierarchy = true)

variable (kernel opts) in
/-- A nonuser namespace whose owner is not visible. -/
def Ownerless (nsfd : NamespaceFile) : Prop :=
  kernel.ioctl opts.ioctlOp nsfd = .error .eperm ∧
    kernel.nsType nsfd ≠ .ok cloneNewUser ∧ opts.showPidnsHierarchy = false

/-- Which namespaces may be topmost, in the terms of the kernel. -/
theorem mayBeTop_iff (answers : kernel.Answers opts) (nsfd : NamespaceFile) :
    kernel.mayBeTop opts nsfd.val = true ↔
      kernel.nsType nsfd = .ok cloneNewUser ∨ opts.showPidnsHierarchy = true := by
  rw [answers.typeOf nsfd, Kernel.mayBeTop, CmdLineOptions.ioctlOp]
  cases opts.showPidnsHierarchy <;> simp

/-- The topmost namespaces are those without an owner. -/
theorem topmost_iff (answers : kernel.Answers opts) (nsfd : NamespaceFile) :
    Topmost kernel opts nsfd ↔ kernel.owner opts nsfd.val = none := by
  rw [Topmost, ← mayBeTop_iff answers]
  -- A visible parent is an owner, and without one the namespace may be topmost.
  cases found : kernel.ioctl opts.ioctlOp nsfd with
  | ok parent => simp [owner_of_ok found]
  | error errno =>
    rw [owner_of_error found, answers.onlyEperm nsfd errno found]
    cases kernel.mayBeTop opts nsfd.val <;> simp

/-- The special entry owns the namespaces without a visible owner. -/
theorem ownerless_iff (answers : kernel.Answers opts) (nsfd : NamespaceFile) :
    Ownerless kernel opts nsfd ↔ kernel.owner opts nsfd.val = some invisUserNS := by
  -- What the condition asks of the options is that the namespace may not be a root.
  have split_ : kernel.nsType nsfd ≠ .ok cloneNewUser ∧ opts.showPidnsHierarchy = false ↔
      ¬ kernel.mayBeTop opts nsfd.val = true := by
    rw [mayBeTop_iff answers]
    simp
  rw [Ownerless, split_]
  -- An owner that is visible is another one than the special entry.
  cases found : kernel.ioctl opts.ioctlOp nsfd with
  | ok parent => simp [owner_of_ok found, parent.property]
  | error errno =>
    rw [owner_of_error found, answers.onlyEperm nsfd errno found]
    cases kernel.mayBeTop opts nsfd.val <;> simp

/-- The namespaces above one in the hierarchy are those to which the kernel leads. -/
theorem above_iff_leads {nsfd above : NamespaceFile} :
    (hierarchy kernel opts).Above above.val nsfd.val ↔ Leads kernel opts nsfd above := by
  -- By induction along the parents, which end since the hierarchy is finite.
  induction nsfd using (kernel.wellFounded opts.ioctlOp).induction with
  | _ nsfd ih =>
    rw [Leads, Relation.ReflTransGen.cases_head_iff]
    cases found : kernel.ioctl opts.ioctlOp nsfd with
    | ok parent =>
      rw [Ancestry.above_of_parent (owner_of_ok found), ih parent found]
      simp only [Except.ok.injEq, exists_eq_left', Leads]
      rw [Subtype.ext_iff, eq_comm]
    | error errno =>
      simp only [reduceCtorEq, false_and, exists_false, or_false]
      -- Without a visible parent nothing is above but the namespace, and maybe the special entry.
      by_cases top : kernel.mayBeTop opts nsfd.val = true
      · have owner := (owner_of_error found).trans (if_pos top)
        rw [Ancestry.above_of_top owner, Subtype.ext_iff, eq_comm]
      · have owner := (owner_of_error found).trans (if_neg top)
        rw [Ancestry.above_of_parent owner,
          Ancestry.above_of_top (hierarchy_invisUserNS kernel opts), Subtype.ext_iff,
          or_iff_left above.property, eq_comm]

/-- The special entry is above a namespace when the kernel leads from there to an ownerless one. -/
theorem above_invisUserNS_iff (answers : kernel.Answers opts) {nsfd : NamespaceFile} :
    (hierarchy kernel opts).Above invisUserNS nsfd.val ↔
      ∃ above, Leads kernel opts nsfd above ∧ Ownerless kernel opts above := by
  rw [Ancestry.above_iff_child]
  simp only [hierarchy_parent, nsfd.property.symm, false_or]
  -- What is directly below the special entry has no visible owner.
  constructor
  · rintro ⟨child, owned, higher⟩
    have visible : child ≠ invisUserNS := by
      rintro rfl
      simp at owned
    exact ⟨⟨child, visible⟩, above_iff_leads.mp higher, (ownerless_iff answers _).mpr owned⟩
  · rintro ⟨above, leads, ownerless⟩
    exact ⟨above.val, (ownerless_iff answers above).mp ownerless, above_iff_leads.mpr leads⟩

/-- What has been found is above something that has been passed. -/
theorem mem_found {calls : List (NamespaceFile × Int)} {nsid : NamespaceId} :
    nsid ∈ found kernel opts calls ↔
      ∃ call ∈ calls, (hierarchy kernel opts).Above nsid call.1.val := by
  rw [found, Ancestry.mem_extendAll]
  simp

/-- The namespaces that have been found are those that have been discovered. -/
theorem mem_found_iff {calls : List (NamespaceFile × Int)} {nsfd : NamespaceFile} :
    nsfd.val ∈ found kernel opts calls ↔ Discovered kernel opts calls nsfd := by
  simp only [mem_found, Discovered, above_iff_leads]

/-- The special entry has been found when a namespace without a visible owner was discovered. -/
theorem invisUserNS_mem_found_iff (answers : kernel.Answers opts)
    {calls : List (NamespaceFile × Int)} :
    invisUserNS ∈ found kernel opts calls ↔
      ∃ nsfd, Discovered kernel opts calls nsfd ∧ Ownerless kernel opts nsfd := by
  simp only [mem_found, above_invisUserNS_iff answers, Discovered]
  -- The special entry is found through a call for something below it.
  constructor
  · rintro ⟨call, called, above, leads, ownerless⟩
    exact ⟨above, ⟨call, called, leads⟩, ownerless⟩
  · rintro ⟨above, ⟨call, called, leads⟩, ownerless⟩
    exact ⟨call, called, above, leads, ownerless⟩

end SysProg.Namespaces
