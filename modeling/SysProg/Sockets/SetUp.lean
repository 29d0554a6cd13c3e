import SysProg.Lib.Descriptors

/-! How sockets are set up in the Internet domain and in the UNIX domain. -/

namespace SysProg.Sockets.SetUp

/-- How a system call goes: it succeeds, or it fails with a value for `errno`. -/
abbrev Answer := Option Int

/-- An element of the list that `getaddrinfo` returns, and how the calls for it go. -/
structure Addrinfo where
  aiAddrlen : Nat
  socket : Answer
  setsockopt : Answer
  /-- Of `connect` or `bind`. -/
  establish : Answer
  deriving Repr

/-- The kernel, and what `close` makes of `errno`. -/
structure World where
  numbering : Numbering
  errnoAfterClose : Int → Int

/-- What the calls have changed. -/
structure Process where
  fds : Descriptors Unit
  errno : Int
  /-- How many address lists have been obtained. -/
  obtained : Nat
  /-- How many times `freeaddrinfo` has been called for them. -/
  freed : Nat

/-- `ENOSYS`. -/
def enosys : Int := 38

/-- `EINVAL`. -/
def einval : Int := 22

/-- `ENAMETOOLONG`. -/
def enametoolong : Int := 36

/-- A call has failed. -/
def Process.fail (process : Process) (errno : Int) : Process :=
  { process with errno }

/-- `socket`, when it succeeds. -/
def Process.socket (world : World) (process : Process) : Nat × Process :=
  let (fd, fds) := process.fds.openNew world.numbering ()
  (fd, { process with fds })

/-- `close`, whose result is not looked at. -/
def Process.close (world : World) (fd : Nat) (process : Process) : Process :=
  { process with
    fds := (process.fds.close fd).getD process.fds
    errno := world.errnoAfterClose process.errno }

/-- `getaddrinfo`, when it succeeds. -/
def Process.getaddrinfo (process : Process) : Process :=
  { process with obtained := process.obtained + 1 }

/-- `freeaddrinfo`. -/
def Process.freeaddrinfo (process : Process) : Process :=
  { process with freed := process.freed + 1 }

variable (world : World)

/-- The loop of `inetConnect`: the socket, unless the end of the list is reached. -/
def connectLoop : List Addrinfo → Process → Option Nat × Process
  | [], process => (none, process)
  | rp :: rest, process =>
    match rp.socket with
    -- On error, try next address.
    | some errno => connectLoop rest (process.fail errno)
    | none =>
      let (sfd, process) := process.socket world
      match rp.establish with
      | none => (some sfd, process)
      -- Connect failed: close this socket and try next address.
      | some errno => connectLoop rest ((process.fail errno).close world sfd)

/-- `inetConnect`, where `none` is a failure of `getaddrinfo`. -/
def inetConnect (list : Option (List Addrinfo)) (process : Process) : Int × Process :=
  match list with
  | none => (-1, process.fail enosys)
  | some result =>
    let (found, process) := connectLoop world result process.getaddrinfo
    let process := process.freeaddrinfo
    match found with
    | none => (-1, process)
    | some sfd => (sfd, process)

/-- How the loop of `inetPassiveSocket` ends. -/
inductive Passive where
  /-- `return -1`, when the address list has been freed. -/
  | returned
  /-- `rp == NULL`. -/
  | exhausted
  /-- A socket has been bound to this address. -/
  | bound (sfd : Nat) (rp : Addrinfo)
  deriving Repr

/-- The loop of `inetPassiveSocket`. -/
def passiveLoop (doListen : Bool) : List Addrinfo → Process → Passive × Process
  | [], process => (.exhausted, process)
  | rp :: rest, process =>
    match rp.socket with
    | some errno => passiveLoop doListen rest (process.fail errno)
    | none =>
      let (sfd, process) := process.socket world
      match doListen, rp.setsockopt with
      | true, some errno =>
        (.returned, ((process.fail errno).close world sfd).freeaddrinfo)
      | _, _ =>
        match rp.establish with
        | none => (.bound sfd rp, process)
        -- bind() failed: close this socket and try next address.
        | some errno => passiveLoop doListen rest ((process.fail errno).close world sfd)

/-- What `inetPassiveSocket` returns, and what it stores in `*addrlen` if that is wanted. -/
structure PassiveSocket where
  value : Int
  addrlen : Option Nat
  process : Process

/-- `inetPassiveSocket`, where `addrlen` says whether the pointer is not null. -/
def inetPassiveSocket (addrlen doListen : Bool) (list : Option (List Addrinfo)) (listen : Answer)
    (process : Process) : PassiveSocket :=
  match list with
  | none => ⟨-1, none, process⟩
  | some result =>
    match passiveLoop world doListen result process.getaddrinfo with
    | (.returned, process) => ⟨-1, none, process⟩
    | (.exhausted, process) => ⟨-1, none, process.freeaddrinfo⟩
    | (.bound sfd rp, process) =>
      match doListen, listen with
      | true, some errno => ⟨-1, none, (process.fail errno).freeaddrinfo⟩
      | _, _ => ⟨sfd, if addrlen then some rp.aiAddrlen else none, process.freeaddrinfo⟩

/-- `inetListen`. -/
def inetListen (addrlen : Bool) (list : Option (List Addrinfo)) (listen : Answer)
    (process : Process) : PassiveSocket :=
  inetPassiveSocket world addrlen true list listen process

/-- `inetBind`. -/
def inetBind (addrlen : Bool) (list : Option (List Addrinfo)) (process : Process) :
    PassiveSocket :=
  inetPassiveSocket world addrlen false list none process

/-- `sizeof(addr->sun_path)`. -/
def sunPathSize : Nat := 108

/-- `unixBuildAddress`: the bytes of `sun_path`, or the value for `errno`. -/
def unixBuildAddress (path : Option (List UInt8)) : Except Int (List UInt8) :=
  match path with
  | none => .error einval
  | some path =>
    if path.length < sunPathSize then
      .ok (path ++ List.replicate (sunPathSize - path.length) 0)
    else .error enametoolong

/-- What `unixConnect` and `unixBind` do, which differ in the last call only. -/
def unixSocket (path : Option (List UInt8)) (socket establish : Answer) (process : Process) :
    Int × Process :=
  match unixBuildAddress path with
  | .error errno => (-1, process.fail errno)
  | .ok _ =>
    match socket with
    | some errno => (-1, process.fail errno)
    | none =>
      let (sd, process) := process.socket world
      match establish with
      | none => (sd, process)
      | some savedErrno =>
        -- Might change 'errno'.
        (-1, ((process.fail savedErrno).close world sd).fail savedErrno)

/-- `unixConnect`. -/
def unixConnect (path : Option (List UInt8)) (socket connect : Answer) (process : Process) :
    Int × Process :=
  unixSocket world path socket connect process

/-- `unixBind`. -/
def unixBind (path : Option (List UInt8)) (socket bind : Answer) (process : Process) :
    Int × Process :=
  unixSocket world path socket bind process

end SysProg.Sockets.SetUp
