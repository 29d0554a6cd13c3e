import Mathlib.Tactic

/-! The signal mask and the dispositions of a process, and how they are changed and put back. -/

namespace SysProg

/-- The number of a signal. -/
abbrev Signal := Nat

namespace Signal

/-- `SIGINT`. -/
def sigint : Signal := 2

/-- `SIGQUIT`. -/
def sigquit : Signal := 3

/-- `SIGCHLD`. -/
def sigchld : Signal := 17

/-- `SIGKILL` and `SIGSTOP`, which cannot be blocked. -/
def unblockable : Finset Signal := {9, 19}

end Signal

/-- What is done about a signal. -/
inductive Handler where
  /-- `SIG_DFL`. -/
  | default
  /-- `SIG_IGN`. -/
  | ignore
  /-- The function at this address is called. -/
  | catch (address : Nat)
  deriving DecidableEq, Repr

/-- A `struct sigaction`. -/
structure Sigaction where
  saHandler : Handler
  saFlags : Nat
  saMask : Finset Signal
  deriving DecidableEq

/-- The signal attributes of a process. -/
structure SignalState where
  blocked : Finset Signal
  actions : Signal → Sigaction
  blockable : Disjoint blocked Signal.unblockable

namespace SignalState

/-- Sets the mask, where nothing is done about signals that cannot be blocked. -/
def setMask (signals : SignalState) (mask : Finset Signal) : SignalState where
  blocked := mask \ Signal.unblockable
  actions := signals.actions
  blockable := Finset.sdiff_disjoint

/-- `sigprocmask(SIG_BLOCK, &set, &old)`. -/
def block (signals : SignalState) (set : Finset Signal) : SignalState :=
  signals.setMask (signals.blocked ∪ set)

/-- `sigaction(sig, &action, &old)`. -/
def sigaction (signals : SignalState) (sig : Signal) (action : Sigaction) : SignalState :=
  { signals with actions := Function.update signals.actions sig action }

/-- What `execve` makes of the attributes: a signal that has been caught is not any more. -/
def exec (signals : SignalState) : SignalState :=
  { signals with
    actions := fun sig =>
      match (signals.actions sig).saHandler with
      | .ignore => signals.actions sig
      | _ => ⟨.default, 0, ∅⟩ }

@[simp] theorem actions_setMask (signals : SignalState) (mask : Finset Signal) :
    (signals.setMask mask).actions = signals.actions :=
  rfl

@[simp] theorem actions_block (signals : SignalState) (set : Finset Signal) :
    (signals.block set).actions = signals.actions :=
  rfl

@[simp] theorem blocked_sigaction (signals : SignalState) (sig : Signal) (action : Sigaction) :
    (signals.sigaction sig action).blocked = signals.blocked :=
  rfl

@[simp] theorem actions_sigaction (signals : SignalState) (sig : Signal) (action : Sigaction) :
    (signals.sigaction sig action).actions = Function.update signals.actions sig action :=
  rfl

@[simp] theorem blocked_exec (signals : SignalState) : signals.exec.blocked = signals.blocked :=
  rfl

/-- A mask that has been in force can be put back. -/
@[simp] theorem blocked_setMask (signals other : SignalState) :
    (other.setMask signals.blocked).blocked = signals.blocked :=
  sdiff_eq_left.mpr signals.blockable

/-- A signal is ignored behind `execve` exactly if it was before. -/
theorem saHandler_exec (signals : SignalState) (sig : Signal) :
    (signals.exec.actions sig).saHandler =
      if (signals.actions sig).saHandler = .ignore then .ignore else .default := by
  unfold exec
  -- Only a handler that catches the signal is reset.
  cases handler : (signals.actions sig).saHandler with
  | default => simp [handler]
  | ignore => simp [handler]
  | «catch» address => simp [handler]

/-- Attributes are known from the mask and the dispositions. -/
@[ext] theorem ext {signals other : SignalState} (blocked : signals.blocked = other.blocked)
    (actions : signals.actions = other.actions) : signals = other := by
  -- A signal state is its mask and its actions.
  obtain ⟨blocked_, actions_, blockable⟩ := signals
  obtain ⟨blocked_', actions_', blockable'⟩ := other
  obtain rfl : blocked_ = blocked_' := blocked
  obtain rfl : actions_ = actions_' := actions
  rfl

end SignalState

end SysProg
