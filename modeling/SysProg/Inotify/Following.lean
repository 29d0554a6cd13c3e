import SysProg.Inotify.RootPaths
import SysProg.Inotify.Trees
import SysProg.Lib.Machine

/-! The program beside another process, which changes the trees while they are walked. -/

namespace SysProg.Inotify.Following

/-- A watch descriptor, as an event carries it. -/
abbrev Descriptor := { wd : Watch // wd.val < 2 ^ 31 }

/-- What the kernel queues for a watched directory. -/
inductive Notice where
  | create (wd : Descriptor) (name : DirName)
  | deleteSelf (wd : Descriptor)
  | ignored (wd : Descriptor)
  | movedFrom (wd : Descriptor) (name : DirName) (cookie : UInt32)
  | movedTo (wd : Descriptor) (name : DirName) (cookie : UInt32)
  deriving DecidableEq

/-- A name is followed by as many null bytes as make its length a multiple of the event's. -/
def padded (name : DirName) : List UInt8 :=
  name.val ++ List.replicate (sizeofInotifyEvent - name.val.length % sizeofInotifyEvent) 0

/-- The event that the program reads. -/
def Notice.event : Notice → InotifyEvent
  | .create wd name => ⟨Int32.ofInt wd.val.val, inCreate ||| inIsdir, 0, padded name⟩
  | .deleteSelf wd => ⟨Int32.ofInt wd.val.val, inDeleteSelf, 0, []⟩
  | .ignored wd => ⟨Int32.ofInt wd.val.val, inIgnored, 0, []⟩
  | .movedFrom wd name cookie =>
    ⟨Int32.ofInt wd.val.val, inMovedFrom ||| inIsdir, cookie, padded name⟩
  | .movedTo wd name cookie => ⟨Int32.ofInt wd.val.val, inMovedTo ||| inIsdir, cookie, padded name⟩

/-- A walk of `nftw` below some pathnames, one after the other. -/
structure Walk where
  /-- The pathnames for which `nftw` is still to be called. -/
  starts : List (List UInt8)
  /-- What has been visited below each pathname, the last one first. -/
  logs : List (List UInt8 × List Visit)
  /-- The directories whose entries are read. -/
  opened : List (List UInt8)
  /-- What was in a directory when `nftw` began to read it, and has not been looked at yet. -/
  pending : List Directory
  /-- The directory that `nftw` has opened, and is about to call `traverseTree` for. -/
  looked : Option Directory

/-- A walk that is about to begin. -/
def Walk.start (starts : List (List UInt8)) : Walk :=
  ⟨starts, [], [], [], none⟩

/-- Adds a visit to what has been visited. -/
def Walk.visit (walk : Walk) (visit : Visit) : Walk :=
  match walk.logs with
  | [] => walk
  | (path, visits) :: logs => { walk with logs := (path, visits ++ [visit]) :: logs }

/-- Why the program walks through a tree. -/
inductive Task where
  /-- It handles an event. -/
  | event (notice : Notice)
  /-- It builds the cache. -/
  | build

/-- Where the program stands. -/
inductive Pc where
  /-- About to handle the next event. -/
  | idle
  | walking (task : Task) (walk : Walk)
  | exited (exit : Exit)

/-- The directories, the watches and events of the kernel, and the program. -/
structure State where
  tree : Tree
  watches : List (Nat × Descriptor)
  /-- No watch descriptor is given out twice. -/
  issued : List Descriptor
  queue : List Notice
  program : Program
  pc : Pc

/-- The program has been started on these trees, and is about to build its cache. -/
def initial (tree : Tree) : State where
  tree := tree
  watches := []
  issued := []
  queue := []
  program :=
    { cache := []
      rootDirPaths := tree.roots.map some
      ignoreRootDirs := 0
      inotifyFd := 0
      inotifyReadCnt := 0
      eventCnt := 0 }
  pc := .walking .build (Walk.start tree.roots)

/-- The watch descriptor under which a directory is watched. -/
def State.watch (state : State) (node : Nat) : Option Descriptor :=
  state.watches.lookup node

/-- Queues events if a directory is watched. -/
def State.tell (state : State) (node : Nat) (notices : Descriptor → List Notice) : State :=
  { state with queue := state.queue ++ ((state.watch node).map notices).getD [] }

/-- Another process makes a directory. -/
def mkdirStep (state : State) (node : Nat) (name : DirName) (merges : Bool) : Option State := do
  let above ← state.tree.directory node
  let tree ← state.tree.mkdir above name
  if merges then
    -- An event that is the same as the last one is not queued again.
    let wd ← state.watch node
    if state.queue.getLast? = some (.create wd name) then some { state with tree := tree } else none
  else some ({ state with tree := tree }.tell node fun wd => [.create wd name])

/-- Another process removes a directory. -/
def rmdirStep (state : State) (node : Nat) : Option State := do
  let gone ← state.tree.directory node
  let tree ← state.tree.rmdir gone
  let told := { state with tree := tree }.tell node fun wd => [.deleteSelf wd, .ignored wd]
  return { told with watches := state.watches.filter fun watch => watch.1 ≠ node }

/-- The name that a directory has in its parent. -/
def nameIn (dir above : Directory) : Option DirName :=
  let bytes := dir.path.val.drop (above.path.val.length + 1)
  if named : bytes ≠ [] ∧ slash ∉ bytes ∧ 0 ∉ bytes ∧ bytes.length ≤ nameMax then
    some ⟨bytes, named⟩
  else none

/-- Another process renames a directory. -/
def renameStep (state : State) (node target : Nat) (name : DirName) (cookie : UInt32) :
    Option State := do
  let dir ← state.tree.directory node
  let above ← state.tree.directory target
  let parent ← dir.parent.bind state.tree.directory
  let oldName ← nameIn dir parent
  let tree ← state.tree.rename dir above name
  let told := { state with tree := tree }.tell parent.node fun wd => [.movedFrom wd oldName cookie]
  return told.tell target fun wd => [.movedTo wd name cookie]

/-- The pathname of a new subdirectory, if an event is about one that is to be walked. -/
def newSubtree (program : Program) (ev : InotifyEvent) : Option (List UInt8) :=
  if ev.has inIsdir && ev.has (inCreate ||| inMovedTo) then do
    let index ← findWatch program.cache ev.wd.toInt
    let slot ← program.cache[index]?
    let fullPath := fullPathOf slot.path.val ev.nameString
    if pathnameInCache program.cache fullPath then none else some fullPath
  else none

/-- What the system answers the program while it handles an event. -/
def State.world (state : State) (logs : List (List UInt8 × List Visit)) (checkExits : Bool) :
    World where
  read _ _ := .failed
  visits _ path := (logs.lookup path).getD []
  rmWatch _ wd := state.watches.any fun watch => watch.2.val.val = wd
  checkExits _ := checkExits

/-- The root directories, without those that are not monitored any more. -/
def State.roots (state : State) : List (List UInt8) :=
  state.program.rootDirPaths.filterMap id

/-- An event has been handled, with these events behind it. -/
def State.handled (state : State) (rest : List Notice) (outcome : Outcome) : State :=
  if outcome.handling.reinitialized then
    -- With the old inotify file descriptor, its watches and events are gone.
    { state with
      watches := []
      queue := []
      program := outcome.program
      pc := .walking .build (Walk.start (outcome.program.rootDirPaths.filterMap id)) }
  else
    -- The watches of what has been zapped are gone, too.
    let zapped := state.watches.filter fun watch =>
      (findWatch state.program.cache watch.2.val.val).isSome &&
        (findWatch outcome.program.cache watch.2.val.val).isNone
    { state with
      watches := state.watches.filter fun watch => watch ∉ zapped
      queue := rest.drop (if outcome.handling.partner.isSome then 1 else 0) ++
        zapped.map fun watch => .ignored watch.2
      program := outcome.program
      pc := .idle }

/-- The program handles the next event, or begins the walk that the event calls for. -/
def handleStep (opts : Options) (state : State) (checkExits : Bool) : Option State :=
  match state.pc, state.queue with
  | .idle, notice :: rest =>
    match newSubtree state.program notice.event with
    | some fullPath =>
      some { state with queue := rest, pc := .walking (.event notice) (Walk.start [fullPath]) }
    | none =>
      -- If the event might be the first one of a rename, another read has been tried.
      match handleNextEvent opts (state.world [] checkExits) state.program notice.event
        (rest.head?.map Notice.event) false with
      | .error exit => some { state with pc := .exited exit }
      | .ok outcome => some (state.handled rest outcome)
  | _, _ => none

/-- `nftw` is called for the next pathname, and opens the directory if it is there. -/
def startStep (state : State) : Option State :=
  match state.pc with
  | .walking task walk =>
    if walk.pending = [] ∧ walk.looked = none then
      match walk.starts with
      | path :: starts =>
        let next : Walk :=
          ⟨starts, (path, []) :: walk.logs, [], [], state.tree.lookup (nftwRoot path)⟩
        some { state with pc := .walking task next }
      | [] => none
    else none
  | _ => none

/-- `nftw` looks at an entry of a directory that it reads, and opens it if it is a directory. -/
def lookStep (state : State) (dir : List UInt8) (name : DirName) : Option State :=
  match state.pc with
  | .walking task walk =>
    if walk.looked = none ∧ dir ∈ walk.opened then
      let next : Walk := { walk with
        pending := walk.pending.filter fun other => other.path.val ≠ nftwChild dir name.val
        looked := state.tree.lookup (nftwChild dir name.val) }
      some { state with pc := .walking task next }
    else none
  | _ => none

/-- `nftw` does not read an entry, since the directory is not there any more. -/
def skipStep (state : State) (node : Nat) : Option State :=
  match state.pc with
  | .walking task walk =>
    if ∀ dir ∈ state.tree.dirs, dir.node ≠ node then
      let next : Walk := { walk with
        pending := walk.pending.filter fun other => other.node ≠ node }
      some { state with pc := .walking task next }
    else none
  | _ => none

/-- `traverseTree` asks for a watch, before `nftw` begins to read the directory it has opened. -/
def addWatchStep (state : State) (wd : Descriptor) : Option State :=
  match state.pc with
  | .walking task walk =>
    match walk.looked with
    | some dir =>
      let read : Walk := { walk with
        opened := dir.path.val :: walk.opened
        pending := walk.pending ++ state.tree.children dir.node
        looked := none }
      match state.tree.lookup dir.path.val with
      | none => some { state with pc := .walking task (read.visit ⟨dir.path, true, .enoent⟩) }
      | some found =>
        let pc := .walking task (read.visit ⟨dir.path, true, .watching wd.val⟩)
        match state.watch found.node with
        | some known => if wd = known then some { state with pc := pc } else none
        | none =>
          if wd ∉ state.issued then
            some { state with
              watches := state.watches ++ [(found.node, wd)]
              issued := wd :: state.issued
              pc := pc }
          else none
    | none => none
  | _ => none

/-- `nftw` fails, and what it has not visited yet is left out. -/
def cutShortStep (state : State) : Option State :=
  match state.pc with
  | .walking task walk =>
    some { state with pc := .walking task { walk with pending := [], looked := none } }
  | _ => none

/-- The last walk is over, and the program goes on. -/
def finishStep (opts : Options) (state : State) (checkExits : Bool) : Option State :=
  match state.pc with
  | .walking task walk =>
    if walk.starts = [] ∧ walk.pending = [] ∧ walk.looked = none then
      match task with
      | .event notice =>
        match handleNextEvent opts (state.world walk.logs checkExits) state.program notice.event
          none false with
        | .error exit => some { state with pc := .exited exit }
        | .ok outcome => some (state.handled state.queue outcome)
      | .build =>
        match reinitialize (state.roots.flatMap
          ((state.world walk.logs checkExits).visits state.program.eventCnt)) with
        | .error exit => some { state with pc := .exited exit }
        | .ok cache =>
          some { state with program := { state.program with cache := cache }, pc := .idle }
    else none
  | _ => none

/-- What happens next. -/
inductive Action where
  | mkdir (node : Nat) (name : DirName) (merges : Bool)
  | rmdir (node : Nat)
  | rename (node target : Nat) (name : DirName) (cookie : UInt32)
  | handle (checkExits : Bool)
  | start
  | look (dir : List UInt8) (name : DirName)
  | skip (node : Nat)
  | addWatch (wd : Descriptor)
  | cutShort
  | finish (checkExits : Bool)

/-- The program and the other process, which take turns in any order. -/
def following (opts : Options) : Machine State Action where
  step state action :=
    match action with
    | .mkdir node name merges => mkdirStep state node name merges
    | .rmdir node => rmdirStep state node
    | .rename node target name cookie => renameStep state node target name cookie
    | .handle checkExits => handleStep opts state checkExits
    | .start => startStep state
    | .look dir name => lookStep state dir name
    | .skip node => skipStep state node
    | .addWatch wd => addWatchStep state wd
    | .cutShort => cutShortStep state
    | .finish checkExits => finishStep opts state checkExits

end SysProg.Inotify.Following
