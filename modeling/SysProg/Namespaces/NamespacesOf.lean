import SysProg.Lib.Ancestry

/-! The program that shows processes in the hierarchy of their user or PID namespaces. -/

namespace SysProg.Namespaces

/-- A namespace is identified by the device ID and the inode number of its file. -/
structure NamespaceId where
  device : UInt64
  inode : UInt64
  deriving DecidableEq, Repr

/-- The key under which namespaces are recorded whose owners are not visible. -/
def invisUserNS : NamespaceId := ⟨0, 0⟩

/-- What a file descriptor of a namespace refers to, whose device ID and inode number are not 0. -/
abbrev NamespaceFile := { nsid : NamespaceId // nsid ≠ invisUserNS }

/-- `CLONE_NEWUSER`. -/
def cloneNewUser : Nat := 0x10000000

/-- `CLONE_NEWPID`. -/
def cloneNewPid : Nat := 0x20000000

/-- Why a system call fails. -/
inductive Errno where
  | eperm
  | other (number : Nat)
  deriving DecidableEq, Repr

/-- The `ioctl` operations that ask for another namespace. -/
inductive IoctlOp where
  /-- `NS_GET_USERNS`: the owning user namespace, or the parent of a user namespace. -/
  | getUserns
  /-- `NS_GET_PARENT`: the parent of a user or PID namespace. -/
  | getParent
  deriving DecidableEq, Repr

/-- What the kernel answers about namespaces, which have no endless lines of ancestors. -/
structure Kernel where
  /-- `NS_GET_NSTYPE`. -/
  nsType : NamespaceFile → Except Errno Nat
  /-- `NS_GET_OWNER_UID`. -/
  ownerUid : NamespaceFile → Except Errno Int
  ioctl : IoctlOp → NamespaceFile → Except Errno NamespaceFile
  wellFounded : ∀ op, WellFounded fun parent nsfd => ioctl op nsfd = .ok parent

/-- The command-line options that matter here. -/
structure CmdLineOptions where
  /-- Display the PID namespace hierarchy. -/
  showPidnsHierarchy : Bool
  /-- Search for namespaces via `/proc/PID/task/*`. -/
  searchTasks : Bool
  /-- Do extra work to discover other namespaces. -/
  deepScan : Bool
  /-- Bit mask of `CLONE_NEW*` values. -/
  namespaces : Nat

/-- What is recorded for each namespace. -/
structure Namespace where
  nsType : Nat
  /-- Member processes. -/
  pids : List Int
  /-- Child and owned namespaces. -/
  children : List NamespaceId
  /-- UID of the creator of a user namespace. -/
  creatorUid : Int
  deriving DecidableEq, Repr

/-- The namespaces that have been discovered. -/
structure NamespaceInfo where
  nsList : NamespaceId → Option Namespace
  rootNS : NamespaceId

/-- `namespaceInfo{nsList: make(namespaceList)}`. -/
def NamespaceInfo.empty : NamespaceInfo where
  nsList _ := none
  rootNS := ⟨0, 0⟩

/-- Why the program stops before its end. -/
inductive Stop where
  /-- `ioctl(NS_GET_NSTYPE)` fails, and the program exits. -/
  | nsType (errno : Errno)
  /-- `ioctl(NS_GET_OWNER_UID)` fails, and the program exits. -/
  | ownerUid (errno : Errno)
  /-- `ioctl(parent/owner)` fails unexpectedly, and the program exits. -/
  | parentOrOwner (errno : Errno)
  /-- `/proc/PID/ns/*` cannot be opened, and the program exits. -/
  | cannotOpen
  /-- The program panics at an entry of `nsList` that does not exist. -/
  | nilDereference
  /-- The recursion is deeper than the fuel allows. -/
  | outOfFuel
  deriving DecidableEq, Repr

/-- Replaces the entry of a namespace. -/
def NamespaceInfo.set (nsi : NamespaceInfo) (nsid : NamespaceId) (ns : Namespace) :
    NamespaceInfo :=
  { nsi with nsList := Function.update nsi.nsList nsid (some ns) }

/-- Changes the entry of a namespace, which must exist. -/
def NamespaceInfo.modify (nsi : NamespaceInfo) (nsid : NamespaceId)
    (change : Namespace → Namespace) : Except Stop NamespaceInfo :=
  match nsi.nsList nsid with
  | some ns => .ok (nsi.set nsid (change ns))
  | none => .error .nilDereference

/-- `new(namespace)`. -/
def Namespace.new : Namespace := ⟨0, [], [], 0⟩

/-- Makes a namespace a child of another one. -/
def NamespaceInfo.addChild (nsi : NamespaceInfo) (parent nsid : NamespaceId) :
    Except Stop NamespaceInfo :=
  nsi.modify parent fun ns => { ns with children := ns.children ++ [nsid] }

/-- The `ioctl` operation that leads to the parent or owner. -/
def CmdLineOptions.ioctlOp (opts : CmdLineOptions) : IoctlOp :=
  if opts.showPidnsHierarchy then .getParent else .getUserns

/-- Adds a process to the members of a namespace, which must exist. -/
def NamespaceInfo.addMember (nsi : NamespaceInfo) (nsid : NamespaceId) (pid : Int) :
    Except Stop NamespaceInfo :=
  if pid > 0 then nsi.modify nsid fun ns => { ns with pids := ns.pids ++ [pid] } else .ok nsi

/-- The kind of a namespace, or the end of the program. -/
def namespaceType (kernel : Kernel) (nsfd : NamespaceFile) : Except Stop Nat :=
  (kernel.nsType nsfd).mapError .nsType

/-- The creator of a namespace, which is recorded for user namespaces only. -/
def getCreatorUid (kernel : Kernel) (nsType : Nat) (nsfd : NamespaceFile) : Except Stop Int :=
  if nsType = cloneNewUser then (kernel.ownerUid nsfd).mapError .ownerUid else .ok 0

/-- The list with the special entry, which is created if it does not exist yet. -/
def NamespaceInfo.withInvisUserNS (nsi : NamespaceInfo) : NamespaceInfo :=
  if (nsi.nsList invisUserNS).isSome then nsi
  else nsi.set invisUserNS { Namespace.new with nsType := cloneNewUser }

mutual

/-- Adds a namespace and its ancestors to the list, and the process to its members. -/
def addNamespace (kernel : Kernel) (opts : CmdLineOptions) (nsi : NamespaceInfo)
    (nsfd : NamespaceFile) (pid : Int) : Except Stop (NamespaceInfo × NamespaceId) := do
  let added := if (nsi.nsList nsfd.val).isSome then .ok nsi
    else addNamespaceToList kernel opts nsi nsfd
  let nsi ← added
  let nsi ← nsi.addMember nsfd.val pid
  return (nsi, nsfd.val)
termination_by ((kernel.wellFounded opts.ioctlOp).wrap nsfd, 1)

/-- Adds a namespace that is not in the list yet, and makes it a child of its parent or owner. -/
def addNamespaceToList (kernel : Kernel) (opts : CmdLineOptions) (nsi : NamespaceInfo)
    (nsfd : NamespaceFile) : Except Stop NamespaceInfo := do
  let nsType ← namespaceType kernel nsfd
  let creatorUid ← getCreatorUid kernel nsType nsfd
  let nsi := nsi.set nsfd.val { Namespace.new with nsType := nsType, creatorUid := creatorUid }
  match _found : kernel.ioctl opts.ioctlOp nsfd with
  | .error .eperm =>
    if nsType = cloneNewUser ∨ opts.ioctlOp = .getParent then
      -- The topmost visible namespace is remembered.
      return { nsi with rootNS := nsfd.val }
    else
      -- The owner is not visible; a special entry stands for it.
      nsi.withInvisUserNS.addChild invisUserNS nsfd.val
  | .error errno => .error (.parentOrOwner errno)
  | .ok parentFd =>
    -- Nobody is recorded as a member of the parent, hence the PID -1.
    let (nsi, parent) ← addNamespace kernel opts nsi parentFd (-1)
    nsi.addChild parent nsfd.val
termination_by ((kernel.wellFounded opts.ioctlOp).wrap nsfd, 0)

end

/-- Adds namespaces with their members one after the other. -/
def addNamespaces (kernel : Kernel) (opts : CmdLineOptions) (nsi : NamespaceInfo)
    (calls : List (NamespaceFile × Int)) : Except Stop NamespaceInfo :=
  calls.foldlM (fun nsi call => do
    let (nsi, _) ← addNamespace kernel opts nsi call.1 call.2
    return nsi) nsi

/-- Why a namespace symlink of a process cannot be opened. -/
inductive OpenError where
  | eacces
  /-- The process does not exist, in most cases. -/
  | other
  deriving DecidableEq, Repr

/-- What a scan of `/proc` finds. -/
structure Proc where
  /-- The processes, in the order of the directory. -/
  pids : List Nat
  /-- The threads of a process that has not terminated. -/
  tasks : Nat → Option (List Nat)
  /-- The namespace that `/proc/PID/ns/NAME` refers to. -/
  open_ : Nat → String → Except OpenError NamespaceFile
  /-- The namespaces to which file descriptors, bind mounts and symlinks of a process refer. -/
  pinned : Nat → List NamespaceFile

/-- Processes a single `/proc/PID/ns/*` entry, which a process on the command line must have. -/
def addProcessNamespace (kernel : Kernel) (opts : CmdLineOptions) (proc : Proc)
    (isCmdLineArg : Bool) (nsi : NamespaceInfo) (pid : Nat) (nsFile : String) :
    Except Stop NamespaceInfo :=
  match proc.open_ pid nsFile with
  | .ok nsfd => do
    let (nsi, _) ← addNamespace kernel opts nsi nsfd pid
    return nsi
  | .error .eacces => .error .cannotOpen
  | .error .other => if isCmdLineArg then .error .cannotOpen else .ok nsi

/-- Adds a namespace that a process is not a member of, hence the PID -1. -/
def addPinnedNamespace (kernel : Kernel) (opts : CmdLineOptions) (nsi : NamespaceInfo)
    (nsfd : NamespaceFile) : Except Stop NamespaceInfo := do
  let (nsi, _) ← addNamespace kernel opts nsi nsfd (-1)
  return nsi

/-- Adds the namespaces that are pinned into existence by a process or thread. -/
def addPinnedNamespaces (kernel : Kernel) (opts : CmdLineOptions) (proc : Proc)
    (nsi : NamespaceInfo) (id : Nat) : Except Stop NamespaceInfo :=
  (proc.pinned id).foldlM (addPinnedNamespace kernel opts) nsi

/-- Adds the namespaces of one process or thread. -/
def addTheNamespaces (kernel : Kernel) (opts : CmdLineOptions) (proc : Proc)
    (namespaces : List String) (nsi : NamespaceInfo) (id : Nat) : Except Stop NamespaceInfo := do
  let nsi ← namespaces.foldlM
    (fun nsi nsFile => addProcessNamespace kernel opts proc false nsi id nsFile) nsi
  if opts.deepScan then addPinnedNamespaces kernel opts proc nsi id else return nsi

/-- Adds the namespaces of one process, or of all its threads. -/
def addNamespacesForOneProcess (kernel : Kernel) (opts : CmdLineOptions) (proc : Proc)
    (namespaces : List String) (nsi : NamespaceInfo) (pid : Nat) : Except Stop NamespaceInfo :=
  if opts.searchTasks then
    match proc.tasks pid with
    | some tids => tids.foldlM (addTheNamespaces kernel opts proc namespaces) nsi
    | none => .ok nsi
  else addTheNamespaces kernel opts proc namespaces nsi pid

/-- Adds the namespaces of all processes on the system. -/
def addNamespacesForAllProcesses (kernel : Kernel) (opts : CmdLineOptions) (proc : Proc)
    (namespaces : List String) (nsi : NamespaceInfo) : Except Stop NamespaceInfo :=
  proc.pids.foldlM (addNamespacesForOneProcess kernel opts proc namespaces) nsi

/-- A namespace that is displayed, at its level in the tree. -/
structure Line where
  nsid : NamespaceId
  level : Nat
  deriving DecidableEq, Repr

/-- A namespace is displayed if its type is selected, and always if it is a user namespace. -/
def Namespace.Displayed (opts : CmdLineOptions) (ns : Namespace) : Prop :=
  ns.nsType = cloneNewUser ∨ ns.nsType &&& opts.namespaces ≠ 0

instance (opts : CmdLineOptions) : DecidablePred (Namespace.Displayed opts) := fun ns =>
  inferInstanceAs (Decidable (ns.nsType = cloneNewUser ∨ ns.nsType &&& opts.namespaces ≠ 0))

/-- Displays the tree of namespaces below one of them. -/
def displayNamespaceTree (opts : CmdLineOptions) (nsi : NamespaceInfo) :
    Nat → NamespaceId → Nat → Except Stop (List Line)
  | 0, _, _ => .error .outOfFuel
  | fuel + 1, nsid, level =>
    match nsi.nsList nsid with
    | none => .error .nilDereference
    | some ns => do
      let shown := if ns.Displayed opts then [⟨nsid, level⟩] else []
      let below ← ns.children.mapM fun child =>
        displayNamespaceTree opts nsi fuel child (level + 1)
      return shown ++ below.flatten

/-- Displays the hierarchies, as it is done without the option `--subtree`. -/
def displayNamespaceHierarchies (opts : CmdLineOptions) (nsi : NamespaceInfo) (fuel : Nat) :
    Except Stop (List Line) := do
  let visible ← displayNamespaceTree opts nsi fuel nsi.rootNS 0
  if (nsi.nsList invisUserNS).isSome then
    let invisible ← displayNamespaceTree opts nsi fuel invisUserNS 0
    return visible ++ invisible
  else return visible

end SysProg.Namespaces
