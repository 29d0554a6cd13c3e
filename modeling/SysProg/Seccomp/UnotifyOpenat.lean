import SysProg.Seccomp.Notifications

/-! The supervisor of `seccomp_unotify_openat`, which opens files in the place of its target. -/

namespace SysProg.Seccomp

/-- Where the supervisor stands. -/
inductive OpenatPc where
  /-- `ioctl(notifyFd, SECCOMP_IOCTL_NOTIF_RECV, req)`. -/
  | recv
  /-- `req->data.nr != __NR_openat`. -/
  | checkNr
  /-- Inside `getTargetPathname(req, notifyFd, 1, path, sizeof(path))`. -/
  | fetch
  /-- `openat(req->data.args[0], path, req->data.args[2], req->data.args[3])`. -/
  | openat
  /-- `ioctl(notifyFd, SECCOMP_IOCTL_NOTIF_ADDFD, &addfd)`. -/
  | addfd (fd : Nat)
  /-- `close(fd)`. -/
  | closeFd (fd remoteFd : Nat)
  /-- `ioctl(notifyFd, SECCOMP_IOCTL_NOTIF_SEND, resp)`. -/
  | send
  | exited (message : ExitMessage)
  /-- `sigchldHandler` has run. -/
  | terminated
  deriving DecidableEq, Repr

/-- What `handleNotifications` keeps, and what is on record about it. -/
structure OpenatSupervisor where
  session : Session
  pc : OpenatPc
  /-- The descriptors that are open in the supervisor because it opened them for the target. -/
  fds : List Nat
  /-- The IDs of the notifications received, in order. -/
  received : List Nat
  /-- The responses sent, in order, also where the kernel did not take them. -/
  sent : List SeccompNotifResp

/-- The supervisor enters its loop, with anything in its buffer. -/
def OpenatSupervisor.initial (path : List UInt8) : OpenatSupervisor :=
  ⟨.initial path, .recv, [], [], []⟩

/-- What the supervisor, the kernel and the other processes do next. -/
inductive OpenatAction where
  /-- The other processes do something. -/
  | happens (happening : Happening)
  | recv (id : Nat)
  | recvFails (errno : Nat)
  | checkNr
  | fetch (goesAlong : Bool)
  /-- `getTargetPathname` has returned, and a response is prepopulated. -/
  | prepopulate
  | opened (fd : Nat)
  | openFails (errno : Nat)
  /-- The kernel need not be able to add the descriptor to the target. -/
  | addfd (goesAlong : Bool)
  | closeFd
  | send
  /-- The target has terminated. -/
  | sigchld

/-- The loop of `handleNotifications`, one step at a time. -/
def openatStep (supervisor : OpenatSupervisor) (action : OpenatAction) : Option OpenatSupervisor :=
  let session := supervisor.session
  match action, supervisor.pc with
  | .happens happening, _ =>
    (session.happen openatNotifyFilter happening).map fun session => { supervisor with session }
  | .recv id, .recv =>
    (session.receive id).map fun session =>
      { supervisor with session, pc := .checkNr, received := supervisor.received ++ [id] }
  | .recvFails errno, .recv =>
    -- if (errno == EINTR) continue;
    if errno = eintr then some supervisor
    else some { supervisor with pc := .exited .notifRecv }
  | .checkNr, .checkNr =>
    if session.req.data.nr = nrOpenat then
      some { supervisor with session := session.callFetch, pc := .fetch }
    else some { supervisor with pc := .exited .unexpectedNr }
  | .fetch goesAlong, .fetch =>
    (fetchStep 1 session goesAlong).map fun session => { supervisor with session }
  | .prepopulate, .fetch =>
    match session.fetch.pc with
    | .returned .success =>
      some { supervisor with session := session.prepopulate, pc := .openat }
    | .returned _ =>
      some { supervisor with session := session.prepopulate.respond (-einval) 0, pc := .send }
    | _ => none
  | .opened fd, .openat =>
    -- The kernel gives out a descriptor that is not in use.
    if fd ∈ supervisor.fds then none
    else some { supervisor with pc := .addfd fd, fds := fd :: supervisor.fds }
  | .openFails errno, .openat =>
    some { supervisor with session := session.respond (-errno) session.resp.val, pc := .send }
  | .addfd goesAlong, .addfd fd =>
    -- addfd.newfd = 42 + fd;
    if goesAlong ∧ session.world.cookieIsValid session.req.id then
      some { supervisor with pc := .closeFd fd (42 + fd) }
    else some { supervisor with pc := .exited .notifAddfd }
  | .closeFd, .closeFd fd remoteFd =>
    some { supervisor with
      session := session.respond 0 remoteFd, pc := .send, fds := supervisor.fds.erase fd }
  | .send, .send =>
    -- An error is reported, and the loop goes on all the same.
    some { supervisor with
      session := session.send, pc := .recv, sent := supervisor.sent ++ [session.resp] }
  | .sigchld, .exited _ => none
  | .sigchld, _ => some { supervisor with pc := .terminated }
  | _, _ => none

/-- The supervisor, the kernel and the other processes, interleaved in any way. -/
def openatSupervisor : Machine OpenatSupervisor OpenatAction :=
  ⟨openatStep⟩

end SysProg.Seccomp
