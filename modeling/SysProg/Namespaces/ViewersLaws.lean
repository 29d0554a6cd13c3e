import SysProg.Namespaces.Viewers

/-! What the programs for one hierarchy record is what the program for all of them records of it. -/

namespace SysProg.Namespaces

/-- What the simple programs record of a namespace. -/
def Namespace.attribs (ns : Namespace) : Viewers.NamespaceAttribs where
  children := ns.children
  pids := ns.pids

/-- What the simple programs have in their global variables. -/
def NamespaceInfo.globals (nsi : NamespaceInfo) : Viewers.Globals where
  nsList nsid := (nsi.nsList nsid).map Namespace.attribs
  initialNS := nsi.rootNS

/-- No entry of the list is lost. -/
def NamespaceInfo.Keeps (nsi next : NamespaceInfo) : Prop :=
  ∀ nsid, (nsi.nsList nsid).isSome = true → (next.nsList nsid).isSome = true

variable {nsi next : NamespaceInfo}

/-- Nothing is lost in one step or another. -/
theorem NamespaceInfo.Keeps.trans {last : NamespaceInfo} (first : nsi.Keeps next)
    (second : next.Keeps last) : nsi.Keeps last :=
  fun nsid present => second nsid (first nsid present)

/-- Replacing an entry is replacing it for the simple programs. -/
theorem NamespaceInfo.globals_set (nsi : NamespaceInfo) (nsid : NamespaceId) (ns : Namespace) :
    (nsi.set nsid ns).globals = nsi.globals.set nsid ns.attribs := by
  have same : ∀ other, (Function.update nsi.nsList nsid (some ns) other).map Namespace.attribs =
      Function.update nsi.globals.nsList nsid (some ns.attribs) other := by
    intro other
    -- Both replace the same entry.
    by_cases here : other = nsid
    · subst here
      simp
    · simp [here, NamespaceInfo.globals]
  unfold NamespaceInfo.globals NamespaceInfo.set Viewers.Globals.set
  simp only [Viewers.Globals.mk.injEq, and_true]
  exact funext same

/-- Replacing an entry loses none, and leaves one there. -/
theorem NamespaceInfo.keeps_set (nsi : NamespaceInfo) (nsid : NamespaceId) (ns : Namespace) :
    nsi.Keeps (nsi.set nsid ns) ∧ ((nsi.set nsid ns).nsList nsid).isSome = true := by
  refine ⟨fun other present => ?_, by simp [NamespaceInfo.set]⟩
  -- The entry that is set is there, and the others are as they were.
  by_cases here : other = nsid
  · subst here
    simp [NamespaceInfo.set]
  · simp only [NamespaceInfo.set, Function.update_of_ne here]
    exact present

/-- A change that is the same for all programs is made by all, if the entry is there. -/
theorem NamespaceInfo.modify_globals {nsid : NamespaceId}
    (present : (nsi.nsList nsid).isSome = true) {change : Namespace → Namespace}
    {changeAttribs : Viewers.NamespaceAttribs → Viewers.NamespaceAttribs}
    (same : ∀ ns, (change ns).attribs = changeAttribs ns.attribs) :
    ∃ next, nsi.modify nsid change = .ok next ∧
      nsi.globals.modify nsid changeAttribs = .ok next.globals ∧ nsi.Keeps next := by
  obtain ⟨ns, there⟩ := Option.isSome_iff_exists.mp present
  have attribs : nsi.globals.nsList nsid = some ns.attribs := by
    simp [NamespaceInfo.globals, there]
  -- Neither program finds `nil` where the entry should be.
  refine ⟨nsi.set nsid (change ns), ?_, ?_, (nsi.keeps_set nsid _).1⟩
  · rw [NamespaceInfo.modify, there]
  · rw [Viewers.Globals.modify, attribs, nsi.globals_set, same]

/-- All programs make a namespace a child of another one. -/
theorem NamespaceInfo.addChild_globals {parent : NamespaceId}
    (present : (nsi.nsList parent).isSome = true) (nsid : NamespaceId) :
    ∃ next, nsi.addChild parent nsid = .ok next ∧
      nsi.globals.addChild parent nsid = .ok next.globals ∧ nsi.Keeps next :=
  nsi.modify_globals present fun _ => rfl

/-- All programs add a process to the members of a namespace. -/
theorem NamespaceInfo.addMember_globals {nsid : NamespaceId}
    (present : (nsi.nsList nsid).isSome = true) (pid : Int) :
    ∃ next, nsi.addMember nsid pid = .ok next ∧
      nsi.globals.addMember nsid pid = .ok next.globals ∧ nsi.Keeps next := by
  unfold NamespaceInfo.addMember Viewers.Globals.addMember
  split
  · exact nsi.modify_globals present fun _ => rfl
  -- An ancestor that is added on the way has no PID to record.
  · exact ⟨nsi, rfl, rfl, fun _ => id⟩

/-- The namespaces of one type are a hierarchy, which the full program can show. -/
structure Kernel.Shows (kernel : Kernel) (opts : CmdLineOptions) (type : Nat) : Prop where
  /-- `NS_GET_PARENT` gives the parent of a namespace, or fails if no parent is visible. -/
  onlyEperm : ∀ nsfd errno, kernel.nsType nsfd = .ok type →
    kernel.ioctl .getParent nsfd = .error errno → errno = .eperm
  /-- The parent of a namespace is of the same type. -/
  closed : ∀ nsfd parent, kernel.nsType nsfd = .ok type →
    kernel.ioctl .getParent nsfd = .ok parent → kernel.nsType parent = .ok type
  /-- The full program asks for the parent as well. -/
  same : ∀ nsfd, kernel.nsType nsfd = .ok type →
    kernel.ioctl opts.ioctlOp nsfd = kernel.ioctl .getParent nsfd
  /-- It takes the topmost namespace for the root. -/
  root : type = cloneNewUser ∨ opts.ioctlOp = .getParent
  /-- It can record the creator of a user namespace. -/
  ownerUid : type = cloneNewUser → ∀ nsfd, kernel.nsType nsfd = .ok type →
    ∃ uid, kernel.ownerUid nsfd = .ok uid

variable {kernel : Kernel} {opts : CmdLineOptions} {type : Nat} {fails : Errno → Viewers.Exit}

/-- The full program finds out the creator, if it wants to. -/
theorem Kernel.Shows.getCreatorUid (shows : kernel.Shows opts type) {nsfd : NamespaceFile}
    (typed : kernel.nsType nsfd = .ok type) : ∃ uid, getCreatorUid kernel type nsfd = .ok uid := by
  unfold Namespaces.getCreatorUid
  -- Only a user namespace is asked for its creator.
  split
  next user =>
    obtain ⟨uid, answer⟩ := shows.ownerUid user nsfd typed
    exact ⟨uid, by rw [answer]; rfl⟩
  · exact ⟨0, rfl⟩

/-- The full program adds a namespace above which there is another one. -/
theorem addNamespaceToList_of_parent {nsfd parent : NamespaceFile} {uid : Int}
    (typed : kernel.nsType nsfd = .ok type) (creator : getCreatorUid kernel type nsfd = .ok uid)
    (found : kernel.ioctl opts.ioctlOp nsfd = .ok parent) (nsi : NamespaceInfo) :
    addNamespaceToList kernel opts nsi nsfd =
      (addNamespace kernel opts (nsi.set nsfd.val
        { Namespace.new with nsType := type, creatorUid := uid }) parent (-1)).bind
          fun added => added.1.addChild added.2 nsfd.val := by
  have type_ : namespaceType kernel nsfd = .ok type := by
    rw [namespaceType, typed]
    rfl
  rw [addNamespaceToList, type_]
  simp only [bind, Except.bind, creator]
  -- The call succeeds, so neither of the error branches is taken.
  split
  next failed => cases found.symm.trans failed
  next failed => cases found.symm.trans failed
  next other same =>
    obtain rfl := Except.ok.inj (found.symm.trans same)
    rfl

/-- The full program adds a namespace that it takes for the root. -/
theorem addNamespaceToList_of_root {nsfd : NamespaceFile} {uid : Int}
    (typed : kernel.nsType nsfd = .ok type) (creator : getCreatorUid kernel type nsfd = .ok uid)
    (root : type = cloneNewUser ∨ opts.ioctlOp = .getParent)
    (refused : kernel.ioctl opts.ioctlOp nsfd = .error .eperm) (nsi : NamespaceInfo) :
    addNamespaceToList kernel opts nsi nsfd = .ok { nsi.set nsfd.val
      { Namespace.new with nsType := type, creatorUid := uid } with rootNS := nsfd.val } := by
  have type_ : namespaceType kernel nsfd = .ok type := by
    rw [namespaceType, typed]
    rfl
  rw [addNamespaceToList, type_]
  simp only [bind, Except.bind, creator]
  -- `EPERM` is the branch that asks what kind of namespace it is.
  split
  · rw [if_pos root]
    rfl
  next other failed =>
    obtain rfl := Except.error.inj (refused.symm.trans failed)
    contradiction
  next same => cases refused.symm.trans same

/-- The simple programs add a namespace above which there is another one. -/
theorem createEntryWith_of_parent {nsfd parent : NamespaceFile}
    (found : kernel.ioctl .getParent nsfd = .ok parent) (globals : Viewers.Globals) :
    Viewers.createEntryWith fails kernel globals nsfd =
      (Viewers.addNamespaceWith fails kernel (globals.set nsfd.val .new) parent (-1)).bind
        fun added => added.1.addChild added.2 nsfd.val := by
  -- Of the three answers of ioctl() only that with a parent is possible here.
  rw [Viewers.createEntryWith]
  simp only [bind, Except.bind]
  split
  next failed => cases found.symm.trans failed
  next failed => cases found.symm.trans failed
  next other same =>
    obtain rfl := Except.ok.inj (found.symm.trans same)
    rfl

/-- The simple programs add a namespace that they take for the initial one. -/
theorem createEntryWith_of_root {nsfd : NamespaceFile}
    (refused : kernel.ioctl .getParent nsfd = .error .eperm) (globals : Viewers.Globals) :
    Viewers.createEntryWith fails kernel globals nsfd =
      .ok { globals.set nsfd.val .new with initialNS := nsfd.val } := by
  rw [Viewers.createEntryWith]
  simp only
  split
  -- `EPERM` tells the simple programs that they have got to the top.
  · rfl
  next other failed =>
    obtain rfl := Except.error.inj (refused.symm.trans failed)
    contradiction
  next same => cases refused.symm.trans same

/-- All programs make the same of a namespace that is added. -/
theorem addNamespace_globals (shows : kernel.Shows opts type) (nsfd : NamespaceFile)
    (typed : kernel.nsType nsfd = .ok type) (nsi : NamespaceInfo) (pid : Int) :
    ∃ next, addNamespace kernel opts nsi nsfd pid = .ok (next, nsfd.val) ∧
      Viewers.addNamespaceWith fails kernel nsi.globals nsfd pid = .ok (next.globals, nsfd.val) ∧
        nsi.Keeps next ∧ (next.nsList nsfd.val).isSome = true := by
  -- The induction goes up the line of ancestors.
  induction nsfd using (kernel.wellFounded .getParent).induction generalizing nsi pid with
  | _ nsfd ih =>
    obtain ⟨middle, added, addedToo, kept, there⟩ : ∃ middle,
        (if (nsi.nsList nsfd.val).isSome then .ok nsi
          else addNamespaceToList kernel opts nsi nsfd) = .ok middle ∧
        (if (nsi.globals.nsList nsfd.val).isSome then .ok nsi.globals
          else Viewers.createEntryWith fails kernel nsi.globals nsfd) = .ok middle.globals ∧
        nsi.Keeps middle ∧ (middle.nsList nsfd.val).isSome = true := by
      -- Either all programs have recorded it before or none of them has.
      have recorded : (nsi.globals.nsList nsfd.val).isSome = (nsi.nsList nsfd.val).isSome := by
        simp [NamespaceInfo.globals]
      rw [recorded]
      by_cases present : (nsi.nsList nsfd.val).isSome = true
      · exact ⟨nsi, if_pos present, if_pos present, fun _ => id, present⟩
      rw [if_neg present, if_neg present]
      obtain ⟨uid, creator⟩ := shows.getCreatorUid typed
      have new := nsi.globals_set nsfd.val { Namespace.new with nsType := type, creatorUid := uid }
      obtain ⟨keeps, entered⟩ := nsi.keeps_set nsfd.val
        { Namespace.new with nsType := type, creatorUid := uid }
      have same := shows.same nsfd typed
      cases found : kernel.ioctl .getParent nsfd with
      -- There is no ancestor, and all programs make it their root.
      | error errno =>
        obtain rfl := shows.onlyEperm nsfd errno typed found
        rw [found] at same
        rw [addNamespaceToList_of_root typed creator shows.root same,
          createEntryWith_of_root found]
        refine ⟨_, rfl, ?_, keeps, entered⟩
        exact congrArg (fun globals : Viewers.Globals =>
          Except.ok { globals with initialNS := nsfd.val }) new.symm
      | ok parent =>
        rw [found] at same
        -- The parent is added first, and has an entry then.
        obtain ⟨above, one, two, keepsAbove, parentThere⟩ := ih parent found
          (shows.closed nsfd parent typed found)
          (nsi.set nsfd.val { Namespace.new with nsType := type, creatorUid := uid }) (-1)
        obtain ⟨next, child, childToo, keepsNext⟩ := above.addChild_globals parentThere nsfd.val
        rw [addNamespaceToList_of_parent typed creator same, createEntryWith_of_parent found, one]
        rw [new] at two
        refine ⟨next, child, ?_, (keeps.trans keepsAbove).trans keepsNext,
          keepsNext _ (keepsAbove _ entered)⟩
        have attribs : ({ Namespace.new with nsType := type, creatorUid := uid } :
          Namespace).attribs = Viewers.NamespaceAttribs.new := rfl
        rw [attribs] at two
        rw [two]
        exact childToo
    -- With the entry in place the process joins its members.
    obtain ⟨next, joined, joinedToo, keeps⟩ := middle.addMember_globals there pid
    refine ⟨next, ?_, ?_, kept.trans keeps, keeps _ there⟩
    · rw [addNamespace]
      simp only [added, bind, Except.bind, joined]
      rfl
    · rw [Viewers.addNamespaceWith]
      simp only [addedToo, bind, Except.bind, joinedToo]
      rfl

/-- All programs make the same of namespaces that are added one after the other. -/
theorem addNamespaces_globals (shows : kernel.Shows opts type) (fails : Errno → Viewers.Exit)
    (calls : List (NamespaceFile × Int))
    (typed : ∀ call ∈ calls, kernel.nsType call.1 = .ok type) (nsi : NamespaceInfo) :
    ∃ next, addNamespaces kernel opts nsi calls = .ok next ∧
      Viewers.addAll (Viewers.addNamespaceWith fails kernel) nsi.globals calls =
        .ok next.globals := by
  -- The induction is on the namespaces that are yet to be added.
  induction calls generalizing nsi with
  | nil => exact ⟨nsi, rfl, rfl⟩
  | cons call rest ih =>
    obtain ⟨middle, one, two, _, _⟩ : ∃ next,
        addNamespace kernel opts nsi call.1 call.2 = .ok (next, call.1.val) ∧
        Viewers.addNamespaceWith fails kernel nsi.globals call.1 call.2 =
          .ok (next.globals, call.1.val) ∧
        nsi.Keeps next ∧ (next.nsList call.1.val).isSome = true :=
      addNamespace_globals shows call.1 (typed call List.mem_cons_self) nsi call.2
    obtain ⟨next, first, second⟩ :=
      ih (fun other mem => typed other (List.mem_cons_of_mem _ mem)) middle
    refine ⟨next, ?_, ?_⟩
    · rw [addNamespaces, List.foldlM_cons, one]
      exact first
    · rw [Viewers.addAll, List.foldlM_cons, two]
      exact second

/-- The full program and a simple one have recorded the same. -/
structure Agrees (full : NamespaceInfo) (simple : Viewers.Globals) : Prop where
  keys : ∀ nsid, (simple.nsList nsid).isSome = (full.nsList nsid).isSome
  children : ∀ nsid ns attribs, full.nsList nsid = some ns → simple.nsList nsid = some attribs →
    attribs.children = ns.children
  pids : ∀ nsid ns attribs, full.nsList nsid = some ns → simple.nsList nsid = some attribs →
    attribs.pids = ns.pids
  root : simple.initialNS = full.rootNS

/-- What a simple program has in its global variables agrees with what the full program has. -/
theorem agrees_globals (nsi : NamespaceInfo) : Agrees nsi nsi.globals := by
  -- An entry of the simple program is the entry of the full one, stripped of the rest.
  have same : ∀ nsid ns attribs, nsi.nsList nsid = some ns →
      nsi.globals.nsList nsid = some attribs → attribs = ns.attribs := by
    intro nsid ns attribs there recorded
    have attribs_ : nsi.globals.nsList nsid = some ns.attribs := by
      simp [NamespaceInfo.globals, there]
    exact Option.some.inj (recorded.symm.trans attribs_)
  exact {
    keys := by simp [NamespaceInfo.globals]
    children := fun nsid ns attribs there recorded =>
      congrArg Viewers.NamespaceAttribs.children (same nsid ns attribs there recorded)
    pids := fun nsid ns attribs there recorded =>
      congrArg Viewers.NamespaceAttribs.pids (same nsid ns attribs there recorded)
    root := rfl }

/-- The parents of PID namespaces are a partial function on PID namespaces. -/
structure Kernel.PidHierarchy (kernel : Kernel) : Prop where
  onlyEperm : ∀ nsfd errno, kernel.nsType nsfd = .ok cloneNewPid →
    kernel.ioctl .getParent nsfd = .error errno → errno = .eperm
  closed : ∀ nsfd parent, kernel.nsType nsfd = .ok cloneNewPid →
    kernel.ioctl .getParent nsfd = .ok parent → kernel.nsType parent = .ok cloneNewPid

/-- The parents of user namespaces are a partial function on user namespaces. -/
structure Kernel.UserHierarchy (kernel : Kernel) : Prop where
  onlyEperm : ∀ nsfd errno, kernel.nsType nsfd = .ok cloneNewUser →
    kernel.ioctl .getParent nsfd = .error errno → errno = .eperm
  closed : ∀ nsfd parent, kernel.nsType nsfd = .ok cloneNewUser →
    kernel.ioctl .getParent nsfd = .ok parent → kernel.nsType parent = .ok cloneNewUser
  /-- `NS_GET_USERNS` gives the parent of a user namespace. -/
  same : ∀ nsfd, kernel.nsType nsfd = .ok cloneNewUser →
    kernel.ioctl .getUserns nsfd = kernel.ioctl .getParent nsfd
  ownerUid : ∀ nsfd, kernel.nsType nsfd = .ok cloneNewUser →
    ∃ uid, kernel.ownerUid nsfd = .ok uid

/-- With `--pidns` the full program can show the PID namespaces. -/
theorem Kernel.PidHierarchy.shows (hierarchy : kernel.PidHierarchy)
    (option : opts.showPidnsHierarchy = true) : kernel.Shows opts cloneNewPid where
  -- With the option, the parent of a PID namespace is asked for.
  onlyEperm := hierarchy.onlyEperm
  closed := hierarchy.closed
  same := fun _ _ => by rw [CmdLineOptions.ioctlOp, if_pos option]
  root := .inr (if_pos option)
  ownerUid := nofun

/-- Without that option it can show the user namespaces. -/
theorem Kernel.UserHierarchy.shows (hierarchy : kernel.UserHierarchy)
    (option : opts.showPidnsHierarchy = false) : kernel.Shows opts cloneNewUser where
  -- Without the option, the parent of a user namespace is asked for.
  onlyEperm := hierarchy.onlyEperm
  closed := hierarchy.closed
  same := by
    intro nsfd typed
    rw [CmdLineOptions.ioctlOp, option]
    exact hierarchy.same nsfd typed
  root := .inl rfl
  ownerUid := fun _ => hierarchy.ownerUid

/-- Either simple program agrees with the full one, whatever is added. -/
theorem viewers_agree (kernel : Kernel) (opts : CmdLineOptions) :
    (kernel.PidHierarchy → opts.showPidnsHierarchy = true →
      ∀ calls : List (NamespaceFile × Int),
        (∀ call ∈ calls, kernel.nsType call.1 = .ok cloneNewPid) →
        ∃ full simple, addNamespaces kernel opts .empty calls = .ok full ∧
          Viewers.addAll (Viewers.PidNamespaces.addNamespace kernel) .empty calls = .ok simple ∧
          Agrees full simple) ∧
    (kernel.UserHierarchy → opts.showPidnsHierarchy = false →
      ∀ calls : List (NamespaceFile × Int),
        (∀ call ∈ calls, kernel.nsType call.1 = .ok cloneNewUser) →
        ∃ full simple, addNamespaces kernel opts .empty calls = .ok full ∧
          Viewers.addAll (Viewers.UsernsOverview.addNamespace kernel) .empty calls = .ok simple ∧
          Agrees full simple) := by
  -- Each viewer does what the full program does on namespaces of its type.
  constructor
  · intro hierarchy option calls typed
    obtain ⟨full, one, two⟩ := addNamespaces_globals (hierarchy.shows option) _ calls typed .empty
    exact ⟨full, full.globals, one, two, agrees_globals full⟩
  · intro hierarchy option calls typed
    obtain ⟨full, one, two⟩ := addNamespaces_globals (hierarchy.shows option) _ calls typed .empty
    exact ⟨full, full.globals, one, two, agrees_globals full⟩

/-- A kernel with two user namespaces, and a PID namespace that belongs to either. -/
def twoHierarchies : Kernel where
  nsType nsfd := .ok (if nsfd.val.inode ≤ 2 then cloneNewUser else cloneNewPid)
  ownerUid _ := .ok 0
  ioctl op nsfd :=
    if nsfd.val.inode = 2 then .ok ⟨⟨4, 1⟩, (by decide : ¬ _)⟩
    else if nsfd.val.inode = 4 then
      match op with
      | .getParent => .ok ⟨⟨4, 3⟩, (by decide : ¬ _)⟩
      | .getUserns => .ok ⟨⟨4, 2⟩, (by decide : ¬ _)⟩
    else .error .eperm
  wellFounded op := by
    refine Subrelation.wf ?_ (measure fun nsfd : NamespaceFile => nsfd.val.inode.toNat).wf
    intro parent nsfd found
    split at found
    · cases found
      simp_all [InvImage, WellFoundedRelation.rel]
    · split at found
      · cases op <;> cases found <;> simp_all [InvImage, WellFoundedRelation.rel]
      · cases found

/-- Its PID namespaces are a hierarchy. -/
theorem twoHierarchies_pid : twoHierarchies.PidHierarchy where
  onlyEperm := by
    intro nsfd errno _ failed
    dsimp only [twoHierarchies] at failed
    split at failed
    · exact nomatch failed
    · split at failed
      · exact nomatch failed
      · exact (Except.error.inj failed).symm
  -- The parent of the fourth namespace is the third.
  closed := by
    intro nsfd parent typed found
    dsimp only [twoHierarchies] at typed found
    split at found
    next child =>
      rw [child] at typed
      exact absurd typed (by decide)
    · split at found
      · obtain rfl := Except.ok.inj found
        rfl
      · exact nomatch found

/-- Its user namespaces are a hierarchy as well. -/
theorem twoHierarchies_user : twoHierarchies.UserHierarchy where
  onlyEperm := fun nsfd errno typed failed => by
    dsimp only [twoHierarchies] at failed
    split at failed
    · exact nomatch failed
    · split at failed
      · exact nomatch failed
      · exact (Except.error.inj failed).symm
  -- The parent of the second namespace is the first.
  closed := by
    intro nsfd parent typed found
    dsimp only [twoHierarchies] at typed found
    split at found
    · obtain rfl := Except.ok.inj found
      rfl
    · split at found
      next child =>
        rw [child] at typed
        exact absurd typed (by decide)
      · exact nomatch found
  same := by
    intro nsfd typed
    dsimp only [twoHierarchies] at typed ⊢
    split
    · rfl
    · split
      next child =>
        rw [child] at typed
        exact absurd typed (by decide)
      · rfl
  ownerUid := fun _ _ => ⟨0, rfl⟩

/-- A child of either hierarchy is added before its parent. -/
theorem viewers_agree_twoHierarchies :
    (∃ full simple,
      addNamespaces twoHierarchies ⟨true, false, false, cloneNewPid⟩ .empty
        [(⟨⟨4, 4⟩, by decide⟩, 7), (⟨⟨4, 3⟩, by decide⟩, 1)] = .ok full ∧
      Viewers.addAll (Viewers.PidNamespaces.addNamespace twoHierarchies) .empty
        [(⟨⟨4, 4⟩, by decide⟩, 7), (⟨⟨4, 3⟩, by decide⟩, 1)] = .ok simple ∧
      Agrees full simple) ∧
    ∃ full simple,
      addNamespaces twoHierarchies ⟨false, false, false, cloneNewUser⟩ .empty
        [(⟨⟨4, 2⟩, by decide⟩, 7), (⟨⟨4, 1⟩, by decide⟩, 1)] = .ok full ∧
      Viewers.addAll (Viewers.UsernsOverview.addNamespace twoHierarchies) .empty
        [(⟨⟨4, 2⟩, by decide⟩, 7), (⟨⟨4, 1⟩, by decide⟩, 1)] = .ok simple ∧
      Agrees full simple := by
  -- One kernel with a hierarchy of each type, and two calls for each viewer.
  constructor
  · refine (viewers_agree twoHierarchies _).1 twoHierarchies_pid rfl _ fun call mem => ?_
    rcases List.mem_pair.mp mem with rfl | rfl <;> rfl
  · refine (viewers_agree twoHierarchies _).2 twoHierarchies_user rfl _ fun call mem => ?_
    rcases List.mem_pair.mp mem with rfl | rfl <;> rfl

end SysProg.Namespaces
