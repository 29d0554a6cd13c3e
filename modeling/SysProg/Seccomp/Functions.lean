import SysProg.Seccomp.World

/-! How a supervisor fetches the pathname that a blocked system call refers to. -/

namespace SysProg.Seccomp

/-- What `getTargetPathname` returns. -/
inductive PathStatus where
  /-- Zero. -/
  | success
  /-- `GTP_BAD_READ`. -/
  | badRead
  /-- `GTP_ID_NOT_VALID`. -/
  | idNotValid
  /-- `GTP_BAD_PATH`. -/
  | badPath
  deriving DecidableEq, Repr

/-- Where `getTargetPathname` stands. -/
inductive FetchPc where
  /-- `open(procMemPath, O_RDONLY | O_CLOEXEC)`. -/
  | openMem
  /-- The first `cookieIsValid(notifyFd, req->id)`. -/
  | checkOpened
  /-- Inside `pread(procMemFd, path, len, req->data.args[argNum])`, which copies byte by byte. -/
  | pread
  /-- `close(procMemFd)`. -/
  | closeMem
  /-- The second `cookieIsValid(notifyFd, req->id)`. -/
  | checkRead
  /-- `strnlen(path, nread)`. -/
  | strnlen
  | returned (status : PathStatus)
  deriving DecidableEq, Repr

/-- A byte that `pread` has copied, and what there is to say about the moment at which it did. -/
structure Copied where
  process : Process
  address : Nat
  byte : UInt8
  /-- The call that the notification ID stood for at this moment. -/
  call : Option Call

/-- The local state of `getTargetPathname`. -/
structure Fetch where
  pc : FetchPc
  procMemFd : Option Process
  /-- The bytes read so far; `nread` is their number. -/
  copied : List Copied

/-- A call of `getTargetPathname` begins. -/
def Fetch.start : Fetch :=
  ⟨.openMem, none, []⟩

/-- `struct seccomp_notif_resp`. -/
structure SeccompNotifResp where
  id : Nat
  val : Int
  error : Int
  flags : BitVec 32
  deriving DecidableEq, Repr

/-- What a supervisor keeps from one notification to the next, and the world around it. -/
structure Session where
  world : World
  /-- The process that has made the call of the last notification. -/
  notifier : Process
  req : SeccompNotif
  resp : SeccompNotifResp
  fetch : Fetch
  /-- The buffer `path`, with all its bytes. -/
  path : List UInt8

/-- A buffer that has been allocated and not been filled. -/
def SeccompNotif.zero : SeccompNotif :=
  ⟨0, 0, 0, 0, 0, fun _ => 0⟩

/-- A supervisor before its first notification, with anything in its buffer. -/
def Session.initial (path : List UInt8) : Session where
  world := .initial
  notifier := ⟨0, 0⟩
  req := .zero
  resp := ⟨0, 0, 0, 0⟩
  fetch := ⟨.returned .badRead, none, []⟩
  path := path

/-- The kernel notifies the supervisor of a call. -/
def Session.receive (session : Session) (id : Nat) : Option Session :=
  (session.world.recv id).map fun (world, notifier, req) =>
    { session with world, notifier, req }

/-- Something happens to the other processes. -/
def Session.happen (filter : List ClassicBpf.SockFilter) (session : Session)
    (happening : Happening) : Option Session :=
  (session.world.happen filter happening).map fun world => { session with world }

/-- The supervisor calls `getTargetPathname`. -/
def Session.callFetch (session : Session) : Session :=
  { session with fetch := .start }

/-- The supervisor sends its response. -/
def Session.send (session : Session) : Session :=
  { session with world := session.world.send session.resp.id }

/-- The next byte that `pread` copies, unless it ends here. -/
def Session.nextByte (session : Session) (argNum : Fin 6) : Option Copied :=
  let nread := session.fetch.copied.length
  let address := (session.req.data.args argNum).toNat + nread
  if nread < session.path.length then
    session.fetch.procMemFd.bind fun process =>
      (session.world.readMem process address).map fun byte =>
        ⟨process, address, byte, session.world.blocked session.req.id⟩
  else none

/-- The function goes on at another place. -/
def Session.fetchAt (session : Session) (pc : FetchPc) (procMemFd : Option Process) : Session :=
  { session with fetch := { session.fetch with pc, procMemFd } }

/--
One step of `getTargetPathname`, with the buffer `path` and its whole length.

Where the kernel does not go along, `open` fails, and `pread` ends before it has to.
-/
def fetchStep (argNum : Fin 6) (session : Session) (goesAlong : Bool) : Option Session :=
  let valid := session.world.cookieIsValid session.req.id
  let nread := session.fetch.copied.length
  match session.fetch.pc with
  | .openMem =>
    match session.world.openMem session.req.pid with
    | some process =>
      if goesAlong then some (session.fetchAt .checkOpened (some process))
      else some (session.fetchAt (.returned .badRead) none)
    | none => some (session.fetchAt (.returned .badRead) none)
  | .checkOpened =>
    if valid then some (session.fetchAt .pread session.fetch.procMemFd)
    -- close(procMemFd);
    else some (session.fetchAt (.returned .idNotValid) none)
  | .pread =>
    match session.nextByte argNum with
    | some copied =>
      if goesAlong then
        some { session with
          path := session.path.set nread copied.byte
          fetch := { session.fetch with copied := session.fetch.copied ++ [copied] } }
      else some (session.fetchAt .closeMem session.fetch.procMemFd)
    | none => some (session.fetchAt .closeMem session.fetch.procMemFd)
  | .closeMem =>
    if nread = 0 then some (session.fetchAt (.returned .badRead) none)
    else some (session.fetchAt .checkRead none)
  | .checkRead =>
    if valid then some (session.fetchAt .strnlen none)
    else some (session.fetchAt (.returned .idNotValid) none)
  | .strnlen =>
    if 0 ∈ session.path.take nread then some (session.fetchAt (.returned .success) none)
    else some (session.fetchAt (.returned .badPath) none)
  | .returned _ => none

/-- What is done next by a program that calls `getTargetPathname` once. -/
inductive CallerAction where
  /-- The other processes do something. -/
  | happens (happening : Happening)
  /-- The program receives its notification and calls the function. -/
  | receives (id : Nat)
  /-- The function goes on. -/
  | goesOn (goesAlong : Bool)

/-- A program that receives one notification and calls `getTargetPathname` for it. -/
structure Caller where
  session : Session
  calling : Bool

/-- The program before it is notified of anything. -/
def Caller.initial (path : List UInt8) : Caller :=
  ⟨.initial path, false⟩

/-- The caller and all other processes, one step at a time. -/
def getTargetPathname (filter : List ClassicBpf.SockFilter) (argNum : Fin 6) :
    Machine Caller CallerAction where
  step
    | caller, .happens happening =>
      (caller.session.happen filter happening).map fun session => { caller with session }
    | caller, .receives id =>
      if caller.calling then none
      else (caller.session.receive id).map fun session => ⟨session.callFetch, true⟩
    | caller, .goesOn goesAlong =>
      if caller.calling then
        (fetchStep argNum caller.session goesAlong).map fun session => { caller with session }
      else none

end SysProg.Seccomp
