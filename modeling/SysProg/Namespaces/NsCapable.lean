import SysProg.Lib.Ancestry
import SysProg.Lib.Descriptors
import SysProg.Lib.Transfers

/-! How `ns_capable` looks for an ancestor of a user namespace. -/

namespace SysProg.Namespaces.NsCapable

/-- User namespaces and their parents, as the kernel has them. -/
structure Kernel (Ns : Type*) extends Ancestry Ns where
  numbering : Numbering
  /-- The device ID and the inode number in the `stat` record. -/
  stat : Ns → Nat × Nat
  identifies : Function.Injective stat

/-- The errors of `ioctl(fd, NS_GET_PARENT)`. -/
inductive Errno where
  | EPERM
  | EBADF
  deriving DecidableEq, Repr

/-- What comes of a call. -/
inductive Outcome (Ns : Type*) where
  | returned (value : Int) (fds : Descriptors Ns)
  | errExit (message : String)

variable {Ns : Type*} (kernel : Kernel Ns)

/-- `ioctl(child, NS_GET_PARENT)`. -/
def getParent (child : Nat) (fds : Descriptors Ns) : Except Errno (Nat × Descriptors Ns) :=
  match fds.object child with
  | none => .error .EBADF
  | some ns =>
    match kernel.parent ns with
    | none => .error .EPERM
    | some parent => .ok (fds.openNew kernel.numbering parent)

/-- `ns_equal`, which exits if one of the descriptors is not open. -/
def nsEqual (nsfd1 nsfd2 : Nat) (fds : Descriptors Ns) : Except String Bool :=
  match fds.object nsfd1 with
  | none => .error "fstat-nsfd1"
  | some first =>
    match fds.object nsfd2 with
    | none => .error "fstat-nsfd2"
    | some second => .ok (kernel.stat first = kernel.stat second)

/-- The loop of `is_ancestor_userns`, as long as the fuel lasts. -/
def walk (sourceUserns targetUserns : Nat) :
    Nat → Nat → Descriptors Ns → Option (Outcome Ns)
  | 0, _, _ => none
  | fuel + 1, child, fds =>
    match getParent kernel child fds with
    | .error error =>
      if error ≠ .EPERM then some (.errExit "ioctl-NS_GET_PARENT")
      else if child ≠ targetUserns then
        match fds.close child with
        | none => some (.errExit "close(child)")
        | some fds => some (.returned (-1) fds)
      else some (.returned (-1) fds)
    | .ok (parent, fds) =>
      match nsEqual kernel parent sourceUserns fds with
      | .error message => some (.errExit message)
      | .ok true =>
        match fds.close parent with
        | none => some (.errExit "close(parent)")
        | some fds => some (.returned child fds)
      | .ok false =>
        if child ≠ targetUserns then
          match fds.close child with
          | none => some (.errExit "close(child) [loop]")
          | some fds => walk sourceUserns targetUserns fuel parent fds
        else walk sourceUserns targetUserns fuel parent fds

/-- `is_ancestor_userns`. -/
def isAncestorUserns (sourceUserns targetUserns : Nat) (fds : Descriptors Ns) (fuel : Nat) :
    Option (Outcome Ns) :=
  walk kernel sourceUserns targetUserns fuel targetUserns fds

end SysProg.Namespaces.NsCapable
