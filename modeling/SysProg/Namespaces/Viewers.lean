import SysProg.Namespaces.NamespacesOf

/-! The programs that show the processes of one hierarchy only, of PID or of user namespaces. -/

namespace SysProg.Namespaces.Viewers

/-- What is recorded for each namespace. -/
structure NamespaceAttribs where
  /-- Child namespaces. -/
  children : List NamespaceId
  /-- Member processes. -/
  pids : List Int
  deriving DecidableEq, Repr

/-- `new(namespaceAttribs)`. -/
def NamespaceAttribs.new : NamespaceAttribs := ⟨[], []⟩

/-- The global variables of either program. -/
structure Globals where
  nsList : NamespaceId → Option NamespaceAttribs
  /-- `initialPidNS` or `initialNS`. -/
  initialNS : NamespaceId

/-- `make(map[namespaceID]*namespaceAttribs)`. -/
def Globals.empty : Globals where
  nsList _ := none
  initialNS := ⟨0, 0⟩

/-- Why either program stops before its end. -/
inductive Exit where
  /-- `This kernel doesn't support namespace ioctl() operations`. -/
  | unsupported
  /-- `ioctl(NS_GET_PARENT)` fails unexpectedly. -/
  | ioctl (errno : Errno)
  /-- The program panics at an entry of `nsList` that does not exist. -/
  | nilDereference
  deriving DecidableEq, Repr

/-- Replaces the entry of a namespace. -/
def Globals.set (globals : Globals) (nsid : NamespaceId) (attribs : NamespaceAttribs) : Globals :=
  { globals with nsList := Function.update globals.nsList nsid (some attribs) }

/-- Changes the entry of a namespace, which must exist. -/
def Globals.modify (globals : Globals) (nsid : NamespaceId)
    (change : NamespaceAttribs → NamespaceAttribs) : Except Exit Globals :=
  match globals.nsList nsid with
  | some attribs => .ok (globals.set nsid (change attribs))
  | none => .error .nilDereference

/-- Makes a namespace a child of another one. -/
def Globals.addChild (globals : Globals) (parent nsid : NamespaceId) : Except Exit Globals :=
  globals.modify parent fun attribs => { attribs with children := attribs.children ++ [nsid] }

/-- Adds a process to the members of a namespace. -/
def Globals.addMember (globals : Globals) (nsid : NamespaceId) (pid : Int) :
    Except Exit Globals :=
  if pid > 0 then
    globals.modify nsid fun attribs => { attribs with pids := attribs.pids ++ [pid] }
  else .ok globals

mutual

/-- Adds a namespace and its ancestors, as both programs do but for the errors that they tell. -/
def addNamespaceWith (fails : Errno → Exit) (kernel : Kernel) (globals : Globals)
    (namespaceFd : NamespaceFile) (pid : Int) : Except Exit (Globals × NamespaceId) := do
  let nsid := namespaceFd.val
  let added := if (globals.nsList nsid).isSome then .ok globals
    else createEntryWith fails kernel globals namespaceFd
  let globals ← added
  let globals ← globals.addMember nsid pid
  return (globals, nsid)
termination_by ((kernel.wellFounded .getParent).wrap namespaceFd, 1)

/-- The branch of that function for a namespace that has no entry yet. -/
def createEntryWith (fails : Errno → Exit) (kernel : Kernel) (globals : Globals)
    (namespaceFd : NamespaceFile) : Except Exit Globals := do
  let nsid := namespaceFd.val
  let globals := globals.set nsid .new
  match _found : kernel.ioctl .getParent namespaceFd with
  -- The initial namespace is remembered.
  | .error .eperm => return { globals with initialNS := nsid }
  | .error errno => .error (fails errno)
  | .ok parentFd =>
    -- Nobody is recorded as a member of the parent, hence the PID -1.
    let (globals, parent) ← addNamespaceWith fails kernel globals parentFd (-1)
    globals.addChild parent nsid
termination_by ((kernel.wellFounded .getParent).wrap namespaceFd, 0)

end

namespace PidNamespaces

/-- Adds a PID namespace and its ancestors to the list, and the process to its members. -/
def addNamespace : Kernel → Globals → NamespaceFile → Int → Except Exit (Globals × NamespaceId) :=
  addNamespaceWith .ioctl

end PidNamespaces

namespace UsernsOverview

/-- `ENOTTY`. -/
def enotty : Errno := .other 25

/-- Adds a user namespace and its ancestors to the list, and the process to its members. -/
def addNamespace : Kernel → Globals → NamespaceFile → Int → Except Exit (Globals × NamespaceId) :=
  addNamespaceWith fun errno => if errno = enotty then .unsupported else .ioctl errno

end UsernsOverview

/-- Adds namespaces with their members one after the other. -/
def addAll (add : Globals → NamespaceFile → Int → Except Exit (Globals × NamespaceId))
    (globals : Globals) (calls : List (NamespaceFile × Int)) : Except Exit Globals :=
  calls.foldlM (fun globals call => do
    let (globals, _) ← add globals call.1 call.2
    return globals) globals

end SysProg.Namespaces.Viewers
