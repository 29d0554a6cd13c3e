import SysProg.Lib.Pathname
import SysProg.Seccomp.Notifications

/-! The supervisor of `seccomp_unotify_mkdir`, which creates directories for its target. -/

namespace SysProg.Seccomp

/-- `SECCOMP_USER_NOTIF_FLAG_CONTINUE`. -/
def flagContinue : BitVec 32 := 1

/-- The bytes of `"/tmp/"`. -/
def slashTmpSlash : List UInt8 := [47, 116, 109, 112, 47]

/-- The bytes of `"./"`. -/
def dotSlash : List UInt8 := [46, 47]

/-- The bytes of `"/bye"`. -/
def slashBye : List UInt8 := [47, 98, 121, 101]

/-- The string in the buffer `path`, which goes up to the first null byte. -/
def Session.string (session : Session) : List UInt8 :=
  session.path.takeWhile (· ≠ 0)

/-- `struct cmdLineOpts`, as far as the supervisor looks at it. -/
structure CmdLineOpts where
  delaySecs : Int

/-- Where the supervisor stands. -/
inductive MkdirPc where
  /-- `ioctl(notifyFd, SECCOMP_IOCTL_NOTIF_RECV, req)`. -/
  | recv
  /-- `req->data.nr != __NR_mkdir`. -/
  | checkNr
  /-- The check of the ID before the delay. -/
  | checkBefore
  /-- The check of the ID after the delay. -/
  | checkAfter
  /-- Inside `getTargetPathname(req, notifyFd, 0, path, sizeof(path))`. -/
  | fetch
  /-- `mkdir(path, req->data.args[1])`. -/
  | mkdir
  /-- `ioctl(notifyFd, SECCOMP_IOCTL_NOTIF_SEND, resp)`. -/
  | send (made : Bool)
  /-- `strcmp(path, "/bye")`. -/
  | checkBye
  | exited (message : ExitMessage)
  /-- The loop has been left: "terminating **********". -/
  | terminating
  deriving DecidableEq, Repr

/-- What is on record about a notification that has been answered. -/
structure Answer where
  /-- The pathname, where `getTargetPathname` has returned 0. -/
  fetched : Option (List UInt8)
  /-- The supervisor has created the directory itself. -/
  made : Bool
  resp : SeccompNotifResp
  deriving DecidableEq, Repr

/-- What `handleNotifications` keeps, and what is on record about it. -/
structure MkdirSupervisor where
  session : Session
  pc : MkdirPc
  /-- The pathnames of the directories that the supervisor has created. -/
  created : List (List UInt8)
  /-- What has been sent, in order, also where the kernel did not take it. -/
  sent : List Answer

/-- The supervisor enters its loop, with anything in its buffer. -/
def MkdirSupervisor.initial (path : List UInt8) : MkdirSupervisor :=
  ⟨.initial path, .recv, [], []⟩

/-- What the supervisor, the kernel and the other processes do next. -/
inductive MkdirAction where
  /-- The other processes do something. -/
  | happens (happening : Happening)
  | recv (id : Nat)
  | recvFails (errno : Nat)
  | checkNr
  | checkId
  | fetch (goesAlong : Bool)
  /-- `getTargetPathname` has returned, and the pathname decides what is done. -/
  | decide
  | made
  | mkdirFails (errno : Nat)
  | send
  | checkBye

/-- The pathname, where `getTargetPathname` has returned 0. -/
def Session.fetched (session : Session) : Option (List UInt8) :=
  if session.fetch.pc = .returned .success then some session.string else none

/-- What is done about a notification after `getTargetPathname` has returned with success. -/
def MkdirSupervisor.decide (supervisor : MkdirSupervisor) (session : Session) : MkdirSupervisor :=
  -- strncmp(path, "/tmp/", strlen("/tmp/")) == 0
  if slashTmpSlash <+: session.string then { supervisor with session, pc := .mkdir }
  -- strncmp(path, "./", strlen("./")) == 0
  else if dotSlash <+: session.string then
    let resp := { session.resp with error := 0, val := 0, flags := flagContinue }
    { supervisor with session := { session with resp }, pc := .send false }
  else
    { supervisor with session := session.respond (-eopnotsupp) session.resp.val, pc := .send false }

/-- The loop of `handleNotifications`, one step at a time. -/
def mkdirStep (opts : CmdLineOpts) (supervisor : MkdirSupervisor) (action : MkdirAction) :
    Option MkdirSupervisor :=
  let session := supervisor.session
  let valid := session.world.cookieIsValid session.req.id
  match action, supervisor.pc with
  | .happens happening, _ =>
    (session.happen mkdirNotifyFilter happening).map fun session => { supervisor with session }
  | .recv id, .recv =>
    (session.receive id).map fun session => { supervisor with session, pc := .checkNr }
  | .recvFails errno, .recv =>
    -- if (errno == EINTR) continue;
    if errno = eintr then some supervisor
    else some { supervisor with pc := .exited .notifRecv }
  | .checkNr, .checkNr =>
    if session.req.data.nr ≠ nrMkdir then some { supervisor with pc := .exited .unexpectedNr }
    else if opts.delaySecs > 0 then some { supervisor with pc := .checkBefore }
    else some { supervisor with session := session.callFetch, pc := .fetch }
  | .checkId, .checkBefore =>
    -- The delay itself takes no step of its own, since anything may happen before the next one.
    if valid then some { supervisor with pc := .checkAfter }
    else some { supervisor with pc := .exited .idCheck }
  | .checkId, .checkAfter =>
    if valid then some { supervisor with session := session.callFetch, pc := .fetch }
    else some { supervisor with pc := .exited .idCheck }
  | .fetch goesAlong, .fetch =>
    (fetchStep 0 session goesAlong).map fun session => { supervisor with session }
  | .decide, .fetch =>
    match session.fetch.pc with
    | .returned .success => some (supervisor.decide session.prepopulate)
    | .returned _ =>
      some { supervisor with
        session := session.prepopulate.respond (-einval) 0, pc := .send false }
    | _ => none
  | .made, .mkdir =>
    -- resp->val = strlen(path);
    some { supervisor with
      session := session.respond 0 session.string.length
      pc := .send true
      created := supervisor.created ++ [session.string] }
  | .mkdirFails errno, .mkdir =>
    -- The kernel tells what has gone wrong by a positive number.
    if 0 < errno then
      some { supervisor with
        session := session.respond (-errno) session.resp.val, pc := .send false }
    else none
  | .send, .send made =>
    -- An error is reported, and the loop goes on all the same.
    some { supervisor with
      session := session.send
      pc := .checkBye
      sent := supervisor.sent ++ [⟨session.fetched, made, session.resp⟩] }
  | .checkBye, .checkBye =>
    if session.string = slashBye then some { supervisor with pc := .terminating }
    else some { supervisor with pc := .recv }
  | _, _ => none

/-- The supervisor, the kernel and the other processes, interleaved in any way. -/
def mkdirSupervisor (opts : CmdLineOpts) : Machine MkdirSupervisor MkdirAction :=
  ⟨mkdirStep opts⟩

end SysProg.Seccomp
