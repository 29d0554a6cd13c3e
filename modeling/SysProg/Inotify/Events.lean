import SysProg.Inotify.Cache
import SysProg.Lib.Memory

/-! Reading inotify events, and handling them one after the other. -/

namespace SysProg.Inotify

/-- The longest name of a file. -/
def nameMax : Nat := 255

/-- `sizeof(struct inotify_event)`, without the name. -/
def sizeofInotifyEvent : Nat := 16

/-- The size of the buffer for events. -/
def inotifyReadBufLen : Nat := 100 * (sizeofInotifyEvent + nameMax + 1)

/-- An event, where the name with its padding has as many bytes as the field `len` says. -/
structure InotifyEvent where
  wd : Int32
  mask : UInt32
  cookie : UInt32
  name : List UInt8
  deriving DecidableEq

def inMovedFrom : UInt32 := 0x40
def inMovedTo : UInt32 := 0x80
def inCreate : UInt32 := 0x100
def inDeleteSelf : UInt32 := 0x400
def inMoveSelf : UInt32 := 0x800
def inUnmount : UInt32 := 0x2000
def inQOverflow : UInt32 := 0x4000
def inIgnored : UInt32 := 0x8000
def inIsdir : UInt32 := 0x40000000

namespace InotifyEvent

/-- Whether one of the flags is set. -/
def has (ev : InotifyEvent) (flags : UInt32) : Bool :=
  ev.mask &&& flags ≠ 0

/-- A directory was moved away from a watched directory. -/
def isMovedFromDir (ev : InotifyEvent) : Bool :=
  ev.mask &&& (inMovedFrom ||| inIsdir) = inMovedFrom ||| inIsdir

/-- The name as a string, which ends before the first null byte. -/
def nameString (ev : InotifyEvent) : List UInt8 :=
  ev.name.takeWhile (· ≠ 0)

/-- The number of bytes that an event takes in the buffer. -/
def size (ev : InotifyEvent) : Nat :=
  sizeofInotifyEvent + ev.name.length

/-- The bytes of an event. -/
def encode (ev : InotifyEvent) : List UInt8 :=
  Memory.bytesOf ev.wd.toUInt32 ++ (Memory.bytesOf ev.mask ++ (Memory.bytesOf ev.cookie ++
    (Memory.bytesOf (UInt32.ofNat ev.name.length) ++ ev.name)))

end InotifyEvent

/-- The event at an address of the buffer. -/
def decode (buf : Memory) (start : Nat) : InotifyEvent where
  wd := (buf.word start).toInt32
  mask := buf.word (start + 4)
  cookie := buf.word (start + 8)
  name := buf.load (start + 16) (buf.word (start + 12)).toNat

/-- The bytes of events one after the other. -/
def encodeAll (evs : List InotifyEvent) : List UInt8 :=
  evs.flatMap InotifyEvent.encode

/-- What `read` on the inotify file descriptor does. -/
inductive ReadResult where
  | events (evs : List InotifyEvent)
  /-- A signal interrupts the call before there are events. -/
  | eintr
  | failed
  /-- The result is 0. -/
  | nothing
  deriving DecidableEq

/-- What the system answers, where the calls and the events are numbered. -/
structure World where
  /-- A `read` that asks for this number of bytes. -/
  read : Nat → Nat → ReadResult
  /-- The files that `nftw` visits below a pathname when an event is handled. -/
  visits : Nat → List UInt8 → List Visit
  /-- Whether `inotify_rm_watch` succeeds when an event is handled. -/
  rmWatch : Nat → Int → Bool
  /-- Whether the program exits when it checks the cache after an event. -/
  checkExits : Nat → Bool

/-- The command-line options that matter here. -/
structure Options where
  abortOnCacheProblem : Bool
  checkCache : Bool
  /-- The number of bytes to ask for, where 0 stands for the size of the buffer. -/
  readBufferSize : Nat

/-- The global variables of the program. -/
structure Program where
  cache : Cache
  /-- The root directories, without those that are not monitored any more. -/
  rootDirPaths : List (Option (List UInt8))
  ignoreRootDirs : Nat
  /-- The inotify file descriptors are numbered, too. -/
  inotifyFd : Nat
  inotifyReadCnt : Nat
  /-- The number of events that have been handled. -/
  eventCnt : Nat
  deriving DecidableEq

/-- Discards the inotify file descriptor for a new one, and builds the cache anew. -/
def Program.reinitialize (program : Program) (world : World) : Except Exit Program := do
  let roots := program.rootDirPaths.filterMap id
  let cache ← Inotify.reinitialize (roots.flatMap (world.visits program.eventCnt))
  return { program with cache := cache, inotifyFd := program.inotifyFd + 1 }

/-- Whether a pathname is that of a root directory. -/
def Program.isRootDirPath (program : Program) (path : List UInt8) : Bool :=
  some path ∈ program.rootDirPaths

/-- Ceases to monitor a root directory, after the last of which the program exits. -/
def Program.zapRootDirPath (program : Program) (path : List UInt8) : Except Exit Program :=
  match program.rootDirPaths.findIdx? (· = some path) with
  | none => .error .failure
  | some index =>
    if program.ignoreRootDirs + 1 = program.rootDirPaths.length then .error .success
    else .ok { program with
      rootDirPaths := program.rootDirPaths.set index none
      ignoreRootDirs := program.ignoreRootDirs + 1 }

/-- What was done about an event. -/
inductive Action where
  /-- The new subtree is watched. -/
  | created
  /-- The cached item is removed. -/
  | deleted
  /-- The cached pathnames are rewritten. -/
  | renamed
  /-- The subtree was moved out of the tree, and is zapped. -/
  | movedOut
  /-- The event waits for more events. -/
  | hanging
  /-- The queue has overflowed. -/
  | overflow
  | unmounted
  | rootMoved
  | ignored
  /-- The watch descriptor is not in the cache. -/
  | unknownWatch
  deriving DecidableEq

/-- An event, or a pair of them, that was handled. -/
structure Handling where
  event : InotifyEvent
  partner : Option InotifyEvent
  action : Action
  reinitialized : Bool
  deriving DecidableEq

/-- What handling an event has led to. -/
structure Outcome where
  evLen : Int
  handling : Handling
  program : Program

/-- Ends the handling of an event with the check of the cache. -/
def finish (opts : Options) (world : World) (program : Program) (handling : Handling)
    (evLen : Int) : Except Exit Outcome :=
  if opts.checkCache && world.checkExits program.eventCnt then .error .failure
  else .ok ⟨evLen, handling, { program with eventCnt := program.eventCnt + 1 }⟩

/-- Builds the cache anew, and discards all remaining events. -/
def rebuild (world : World) (program : Program) (ev : InotifyEvent) (action : Action) :
    Except Exit Outcome := do
  let program ← program.reinitialize world
  return ⟨inotifyReadBufLen, ⟨ev, none, action, true⟩,
    { program with eventCnt := program.eventCnt + 1 }⟩

/-- Looks for a watch descriptor that is expected to be in the cache. -/
def findWatchChecked (opts : Options) (cache : Cache) (wd : Int) : Except Exit (Option Nat) :=
  match findWatch cache wd with
  | some slot => .ok (some slot)
  | none => if opts.abortOnCacheProblem then .error .aborted else .ok none

/-- The pathname in the slot that was looked up for an event. -/
def cachedPath (cache : Cache) (evCacheSlot : Option Nat) : Except Exit (List UInt8) :=
  match evCacheSlot.bind fun slot => cache[slot]? with
  | some slot => .ok slot.path.val
  | none => .error .undefined

/-- The full pathname that an event is about, in a buffer for a pathname and a name. -/
def fullPathOf (path name : List UInt8) : List UInt8 :=
  (join path name).take (pathMax + nameMax - 1)

/-- Watches a new subdirectory, unless it has already been cached. -/
def handleCreate (opts : Options) (world : World) (program : Program) (ev : InotifyEvent)
    (evCacheSlot : Option Nat) : Except Exit Outcome := do
  let path ← cachedPath program.cache evCacheSlot
  let fullPath := fullPathOf path ev.nameString
  let watchNew := if pathnameInCache program.cache fullPath then .ok program.cache
    else watchSubtree program.cache (world.visits program.eventCnt fullPath)
  let cache ← watchNew
  finish opts world { program with cache := cache } ⟨ev, none, .created, false⟩ ev.size

/-- Removes a deleted directory from the cache. -/
def handleDeleteSelf (opts : Options) (world : World) (program : Program) (ev : InotifyEvent)
    (evCacheSlot : Option Nat) : Except Exit Outcome := do
  let path ← cachedPath program.cache evCacheSlot
  let zapRoot := if program.isRootDirPath path then program.zapRootDirPath path else .ok program
  let program ← zapRoot
  let cache := evCacheSlot.elim program.cache (markCacheSlotEmpty program.cache)
  finish opts world { program with cache := cache } ⟨ev, none, .deleted, false⟩ ev.size

/-- Rewrites the cached pathnames when both events of a rename have arrived. -/
def handleRename (opts : Options) (world : World) (program : Program) (ev : InotifyEvent)
    (evCacheSlot : Option Nat) (nextEv : InotifyEvent) : Except Exit Outcome := do
  match ← findWatchChecked opts program.cache nextEv.wd.toInt with
  | none => rebuild world program ev .unknownWatch
  | some nextEvCacheSlot =>
    let oldPath ← cachedPath program.cache evCacheSlot
    let newPath ← cachedPath program.cache (some nextEvCacheSlot)
    let cache := rewriteCachedPaths program.cache oldPath ev.nameString newPath nextEv.nameString
    finish opts world { program with cache := cache } ⟨ev, some nextEv, .renamed, false⟩
      (ev.size + nextEv.size)

/-- Zaps a directory that was moved out of the tree. -/
def handleMovedOut (opts : Options) (world : World) (program : Program) (ev : InotifyEvent)
    (evCacheSlot : Option Nat) : Except Exit Outcome := do
  let path ← cachedPath program.cache evCacheSlot
  let fullPath := fullPathOf path ev.nameString
  match zapSubtree (world.rmWatch program.eventCnt) fullPath program.cache with
  | (none, cache) => rebuild world { program with cache := cache } ev .movedOut
  | (some _, cache) =>
    finish opts world { program with cache := cache } ⟨ev, none, .movedOut, false⟩ ev.size

/-- Handles the first event of a rename, for which the next event is looked at. -/
def handleMovedFrom (opts : Options) (world : World) (program : Program) (ev : InotifyEvent)
    (evCacheSlot : Option Nat) (nextEv : Option InotifyEvent) (firstTry : Bool) :
    Except Exit Outcome :=
  match nextEv with
  | some nextEv =>
    if nextEv.has inMovedTo && nextEv.cookie = ev.cookie then
      handleRename opts world program ev evCacheSlot nextEv
    else handleMovedOut opts world program ev evCacheSlot
  | none =>
    if firstTry then
      -- The caller is told to do another read.
      .ok ⟨-1, ⟨ev, none, .hanging, false⟩, { program with eventCnt := program.eventCnt + 1 }⟩
    else handleMovedOut opts world program ev evCacheSlot

/-- Builds the cache anew when events have been lost. -/
def handleOverflow (opts : Options) (world : World) (program : Program) (ev : InotifyEvent) :
    Except Exit Outcome := do
  let program ← program.reinitialize world
  finish opts world program ⟨ev, none, .overflow, true⟩ inotifyReadBufLen

/-- Removes a directory from the cache whose file system is unmounted. -/
def handleUnmount (opts : Options) (world : World) (program : Program) (ev : InotifyEvent)
    (evCacheSlot : Option Nat) : Except Exit Outcome := do
  let _ ← cachedPath program.cache evCacheSlot
  let cache := evCacheSlot.elim program.cache (markCacheSlotEmpty program.cache)
  finish opts world { program with cache := cache } ⟨ev, none, .unmounted, false⟩ ev.size

/-- Ceases to monitor a root directory that was moved. -/
def handleMoveSelf (opts : Options) (world : World) (program : Program) (ev : InotifyEvent)
    (path : List UInt8) : Except Exit Outcome := do
  let program ← program.zapRootDirPath path
  match zapSubtree (world.rmWatch program.eventCnt) path program.cache with
  | (none, cache) => rebuild world { program with cache := cache } ev .rootMoved
  | (some _, cache) =>
    finish opts world { program with cache := cache } ⟨ev, none, .rootMoved, false⟩ ev.size

/-- Handles an event according to its flags. -/
def handleEvent (opts : Options) (world : World) (program : Program) (ev : InotifyEvent)
    (evCacheSlot : Option Nat) (nextEv : Option InotifyEvent) (firstTry : Bool) :
    Except Exit Outcome :=
  if ev.has inIsdir && ev.has (inCreate ||| inMovedTo) then
    handleCreate opts world program ev evCacheSlot
  else if ev.has inDeleteSelf then handleDeleteSelf opts world program ev evCacheSlot
  else if ev.isMovedFromDir then
    handleMovedFrom opts world program ev evCacheSlot nextEv firstTry
  else if ev.has inQOverflow then handleOverflow opts world program ev
  else if ev.has inUnmount then handleUnmount opts world program ev evCacheSlot
  else if ev.has inMoveSelf then do
    let path ← cachedPath program.cache evCacheSlot
    if program.isRootDirPath path then handleMoveSelf opts world program ev path
    else finish opts world program ⟨ev, none, .ignored, false⟩ ev.size
  else finish opts world program ⟨ev, none, .ignored, false⟩ ev.size

/-- Handles an event, whose watch descriptor must be in the cache. -/
def handleNextEvent (opts : Options) (world : World) (program : Program) (ev : InotifyEvent)
    (nextEv : Option InotifyEvent) (firstTry : Bool) : Except Exit Outcome := do
  -- The overflow of the queue has no watch descriptor; an ignored one has already been zapped.
  if ev.wd ≠ -1 && !ev.has inIgnored then
    match ← findWatchChecked opts program.cache ev.wd.toInt with
    | none => rebuild world program ev .unknownWatch
    | some slot => handleEvent opts world program ev (some slot) nextEv firstTry
  else handleEvent opts world program ev none nextEv firstTry

/-- Processes the next event in the buffer, together with the one after it if they are a rename. -/
def processNextInotifyEvent (opts : Options) (world : World) (program : Program) (buf : Memory)
    (start : Nat) (bufSize : Int) (firstTry : Bool) : Except Exit Outcome :=
  let ev := decode buf start
  let nextEv := if ev.size < bufSize then some (decode buf (start + ev.size)) else none
  handleNextEvent opts world program ev nextEv firstTry

/-- The variables of the loop over the events in the buffer. -/
structure LoopState where
  program : Program
  buf : Memory
  /-- The offset of the next event. -/
  evp : Nat
  numRead : Int
  firstTry : Bool

/-- What happens in a call. -/
inductive LogEntry where
  | read (result : ReadResult)
  | event (handling : Handling)
  deriving DecidableEq

/-- How a call ends. -/
inductive Ending where
  | returned (program : Program)
  | exited (exit : Exit)
  /-- The loop is longer than the fuel allows. -/
  | outOfFuel
  deriving DecidableEq

/-- Moves an event that hangs to the start of the buffer, and reads more events for a short time. -/
def secondaryRead (world : World) (state : LoopState) : ReadResult × Except Exit LoopState :=
  let numRead := state.numRead - state.evp
  let buf := state.buf.moveDown state.evp numRead.toNat
  let result := world.read state.program.inotifyReadCnt (inotifyReadBufLen - numRead.toNat)
  let program :=
    { state.program with inotifyReadCnt := state.program.inotifyReadCnt + 1 }
  (result, match result with
    | .events evs => .ok
      { program := program
        buf := buf.store numRead.toNat (encodeAll evs)
        evp := 0
        numRead := numRead + (encodeAll evs).length
        firstTry := false }
    -- The error number is never -1, so the result -1 is added to the number of bytes.
    | .eintr => .ok ⟨program, buf, 0, numRead + (-1), false⟩
    | .failed => .error .failure
    | .nothing => .error .failure)

/-- Processes each event in the buffer. -/
def processEvents (opts : Options) (world : World) : Nat → LoopState → List LogEntry × Ending
  | 0, _ => ([], .outOfFuel)
  | fuel + 1, state =>
    if state.evp < state.numRead then
      match processNextInotifyEvent opts world state.program state.buf state.evp
        (state.numRead - state.evp) state.firstTry with
      | .error exit => ([], .exited exit)
      | .ok outcome =>
        if 0 < outcome.evLen then
          let (log, ending) := processEvents opts world fuel { state with
            program := outcome.program
            evp := state.evp + outcome.evLen.toNat
            firstTry := true }
          (.event outcome.handling :: log, ending)
        else
          match secondaryRead world { state with program := outcome.program } with
          | (result, .error exit) => ([.read result], .exited exit)
          | (result, .ok state) =>
            let (log, ending) := processEvents opts world fuel state
            (.read result :: log, ending)
    else ([], .returned state.program)

/-- Reads a block of events, and processes them. -/
def processInotifyEvents (opts : Options) (world : World) (fuel : Nat) (program : Program)
    (buf : Memory) : List LogEntry × Ending :=
  let cnt := if 0 < opts.readBufferSize then opts.readBufferSize else inotifyReadBufLen
  let result := world.read program.inotifyReadCnt cnt
  match result with
  | .events evs =>
    let (log, ending) := processEvents opts world fuel
      { program := { program with inotifyReadCnt := program.inotifyReadCnt + 1 }
        buf := buf.store 0 (encodeAll evs)
        evp := 0
        numRead := (encodeAll evs).length
        firstTry := true }
    (.read result :: log, ending)
  | _ => ([.read result], .exited .failure)

end SysProg.Inotify
