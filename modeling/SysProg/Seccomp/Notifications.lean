import SysProg.Seccomp.Functions

/-! What the supervisors have in common: how they respond to a notification, and how they fail. -/

namespace SysProg.Seccomp

/-! The error numbers that the supervisors know. -/

def eintr : Nat := 4
def einval : Nat := 22
def eopnotsupp : Nat := 95

/-- What a supervisor says where it terminates by its own decision. -/
inductive ExitMessage where
  /-- `errExit("ioctl-SECCOMP_IOCTL_NOTIF_RECV")`. -/
  | notifRecv
  /-- "notification contained unexpected system call number; bye!!!". -/
  | unexpectedNr
  /-- `errExit("SECCOMP_IOCTL_NOTIF_ADDFD")`. -/
  | notifAddfd
  /-- "notification ID check failed!!!". -/
  | idCheck
  deriving DecidableEq, Repr

/-- The response carries this error, and this value. -/
def Session.respond (session : Session) (error val : Int) : Session :=
  { session with resp := { session.resp with error, val } }

/-- Some fields of the response are prepopulated. -/
def Session.prepopulate (session : Session) : Session :=
  { session with resp := { session.resp with id := session.req.id, flags := 0, val := 0 } }

end SysProg.Seccomp
