import Mathlib.Tactic

/-! Message queues that notify one process, once, when a message arrives while they are empty. -/

namespace SysProg

/-- A queue, and whether a process is registered to be notified. -/
structure MessageQueue (α : Type*) where
  messages : List α
  registered : Bool
  deriving DecidableEq, Repr

namespace MessageQueue

variable {α : Type*}

/-- The process is notified when the next message arrives. -/
def fires (queue : MessageQueue α) : Bool :=
  queue.registered && queue.messages.isEmpty

/-- A message arrives behind so many others, and a registration that fires is removed. -/
def arrive (queue : MessageQueue α) (ahead : Nat) (message : α) : MessageQueue α where
  messages := queue.messages.take ahead ++ message :: queue.messages.drop ahead
  registered := queue.registered && !queue.messages.isEmpty

/-- Registering fails while there is a registration. -/
def register (queue : MessageQueue α) : Option (MessageQueue α) :=
  if queue.registered then none else some { queue with registered := true }

/-- Receiving fails while there is no message. -/
def receive (queue : MessageQueue α) : Option (α × MessageQueue α) :=
  match queue.messages with
  | [] => none
  | message :: rest => some (message, { queue with messages := rest })

/-- A registration is still there after an arrival, or has been turned into a notification. -/
theorem arrive_balance (queue : MessageQueue α) (ahead : Nat) (message : α) :
    (queue.arrive ahead message).registered.toNat + queue.fires.toNat =
      queue.registered.toNat := by
  -- Without a registration both are false, and with one exactly one is true.
  cases registered : queue.registered <;> cases empty : queue.messages.isEmpty <;>
    simp [arrive, fires, registered, empty]

/-- A registration that is still there after an arrival was not on an empty queue. -/
theorem registered_of_arrive {queue : MessageQueue α} {ahead : Nat} {message : α}
    (still : (queue.arrive ahead message).registered = true) :
    queue.registered = true ∧ queue.messages ≠ [] := by
  simpa [arrive] using still

/-- There was no registration before one that is made. -/
theorem register_eq_some {queue after : MessageQueue α} (registers : queue.register = some after) :
    queue.registered = false ∧ after = { queue with registered := true } := by
  unfold register at registers
  -- A second registration fails.
  split at registers
  · exact nomatch registers
  next free => exact ⟨Bool.eq_false_of_not_eq_true free, (Option.some.inj registers).symm⟩

/-- Receiving leaves the registration as it is. -/
theorem receive_eq_some {queue after : MessageQueue α} {message : α}
    (receives : queue.receive = some (message, after)) :
    queue.messages = message :: after.messages ∧ after.registered = queue.registered := by
  unfold receive at receives
  -- The first message is taken, if there is one.
  split at receives
  · exact nomatch receives
  next first rest found =>
    obtain ⟨rfl, rfl⟩ := Prod.mk.inj (Option.some.inj receives)
    exact ⟨found, rfl⟩

/-- Nothing can be received from an empty queue only. -/
theorem receive_eq_none {queue : MessageQueue α} : queue.receive = none ↔ queue.messages = [] := by
  unfold receive
  -- Only an empty queue has nothing to receive.
  split
  next empty => exact ⟨fun _ => empty, fun _ => rfl⟩
  next first rest found => simp [found]

end MessageQueue

end SysProg
