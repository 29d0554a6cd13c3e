import SysProg.Pmsg.MqNotify

/-! A registration, a signal or a flag: one of them is always there to have a program drain. -/

namespace SysProg.Pmsg

/-- Where a signal is raised, none is pending, so none is lost. -/
theorem raise_pending {realtime : Bool} {pending : Nat} (none : pending = 0) :
    raise realtime pending = 1 := by
  -- Standard signals and realtime signals differ from the second pending one on.
  cases realtime <;> simp [raise, none]

/-- An arrival turns a registration into a signal, if anything. -/
theorem arrive_pending (realtime : Bool) {queue : MessageQueue Nat} {pending total : Nat}
    (ahead size : Nat) (balanced : queue.registered.toNat + pending = total)
    (single : total ≤ 1) :
    (queue.arrive ahead size).registered.toNat +
      (if queue.fires then raise realtime pending else pending) = total := by
  have kept := queue.arrive_balance ahead size
  cases fires : queue.fires with
  | false =>
    rw [fires, Bool.toNat_false, Nat.add_zero] at kept
    rw [kept]
    exact balanced
  | true =>
    -- The registration is there, so no signal is pending yet.
    rw [fires, Bool.toNat_true] at kept
    have none : pending = 0 := by omega
    rw [if_pos rfl, raise_pending none]
    omega

section Waiter

variable {realtime : Bool} {waiter next : Waiter}

/-- No call of `mq_notify` finds a registration, and none has failed. -/
def Waiter.Registers (waiter : Waiter) : Prop :=
  (waiter.pc = .notify ∨ waiter.pc = .renotify → waiter.queue.registered = false) ∧
    waiter.pc ≠ .exited

/-- No message is stranded where the program is blocked. -/
def Waiter.Attentive (waiter : Waiter) : Prop :=
  waiter.pc = .wait → waiter.pending = 0 →
    waiter.queue.messages = [] ∧ waiter.queue.registered = true

/-- The registration is there or has become a signal, except where it is about to be made. -/
def Waiter.Balanced (waiter : Waiter) : Prop :=
  match waiter.pc with
  | .notify | .renotify => waiter.queue.registered.toNat + waiter.pending = 0
  | .wait | .receive => waiter.queue.registered.toNat + waiter.pending = 1
  | .exited => False

/-- While the program waits, a registration that has not fired is on an empty queue. -/
def Waiter.Watched (waiter : Waiter) : Prop :=
  waiter.pc = .wait → waiter.queue.registered = true → waiter.queue.messages = []

/-- The queue is empty when the program registers for the first time. -/
def EmptyAtFirst (waiter : Waiter) (action : WaiterAction) : Prop :=
  action = .goesOn → waiter.pc = .notify → waiter.queue.messages = []

instance (waiter : Waiter) (action : WaiterAction) : Decidable (EmptyAtFirst waiter action) :=
  inferInstanceAs (Decidable (_ → _ → _))

/-- A balanced program registers without fail. -/
theorem Waiter.Balanced.registers (balanced : waiter.Balanced) : waiter.Registers := by
  unfold Waiter.Balanced at balanced
  refine ⟨fun about => ?_, fun exited => ?_⟩
  · -- There is neither a registration nor a signal.
    have none : waiter.queue.registered.toNat = 0 := by
      obtain at_ | at_ := about
      · rw [at_] at balanced
        exact (Nat.add_eq_zero_iff.mp balanced).1
      · rw [at_] at balanced
        exact (Nat.add_eq_zero_iff.mp balanced).1
    exact Bool.toNat_eq_zero.mp none
  · rw [exited] at balanced
    exact balanced

/-- A balanced program that watches its queue is attentive. -/
theorem Waiter.Balanced.attentive (balanced : waiter.Balanced) (watched : waiter.Watched) :
    waiter.Attentive := by
  intro waits none
  unfold Waiter.Balanced at balanced
  rw [waits, none] at balanced
  -- No signal is pending, so it is the registration that is there.
  have registered : waiter.queue.registered = true := Bool.toNat_eq_one.mp balanced
  exact ⟨watched waits registered, registered⟩

/-- Every step keeps the balance. -/
theorem Waiter.Balanced.step {action : WaiterAction} (balanced : waiter.Balanced)
    (stepped : waiterStep realtime waiter action = some next) : next.Balanced := by
  have registers := balanced.registers
  unfold Waiter.Balanced at balanced
  -- An arrival may fire the registration, and a step of the program takes its own branch.
  cases action with
  | arrives ahead size =>
    obtain rfl := Option.some.inj stepped
    unfold Waiter.Balanced
    dsimp only
    -- Wherever the program stands, at most one of the two is there.
    split at balanced
    · exact arrive_pending realtime ahead size balanced (Nat.zero_le _)
    · exact arrive_pending realtime ahead size balanced (Nat.zero_le _)
    · exact arrive_pending realtime ahead size balanced (le_refl _)
    · exact arrive_pending realtime ahead size balanced (le_refl _)
    · exact balanced
  | goesOn =>
    cases at_ : waiter.pc with
    | notify =>
      rw [at_] at balanced
      simp only [waiterStep, at_, MessageQueue.register, registers.1 (.inl at_)] at stepped
      obtain rfl := Option.some.inj stepped
      -- The registration is the one thing that is there from now on.
      show 1 + waiter.pending = 1
      omega
    | renotify =>
      rw [at_] at balanced
      simp only [waiterStep, at_, MessageQueue.register, registers.1 (.inr at_)] at stepped
      obtain rfl := Option.some.inj stepped
      show 1 + waiter.pending = 1
      omega
    | wait =>
      rw [at_] at balanced
      simp only [waiterStep, at_] at stepped
      split at stepped
      next signalled =>
        -- The signal that ends the wait was the one thing that was there.
        obtain rfl := Option.some.inj stepped
        show waiter.queue.registered.toNat + (waiter.pending - 1) = 0
        omega
      · exact nomatch stepped
    | receive =>
      rw [at_] at balanced
      simp only [waiterStep, at_] at stepped
      split at stepped
      · obtain rfl := Option.some.inj stepped
        exact balanced
      next size queue received =>
        -- Receiving a message touches neither the registration nor the signals.
        obtain rfl := Option.some.inj stepped
        have same := (MessageQueue.receive_eq_some received).2
        show queue.registered.toNat + waiter.pending = 1
        rw [same]
        exact balanced
    | exited =>
      rw [at_] at balanced
      exact balanced.elim

/-- Every step keeps the program watching, if it has registered on an empty queue. -/
theorem Waiter.Watched.step {action : WaiterAction} (watched : waiter.Watched)
    (empty : EmptyAtFirst waiter action)
    (stepped : waiterStep realtime waiter action = some next) : next.Watched := by
  cases action with
  | arrives ahead size =>
    -- A registration that has survived an arrival was not on an empty queue.
    obtain rfl := Option.some.inj stepped
    intro waits still
    obtain ⟨registered, filled⟩ := MessageQueue.registered_of_arrive still
    exact absurd (watched waits registered) filled
  | goesOn =>
    cases at_ : waiter.pc with
    | notify =>
      simp only [waiterStep, at_] at stepped
      split at stepped
      · obtain rfl := Option.some.inj stepped
        exact fun waits => nomatch waits
      next queue registered =>
        obtain rfl := Option.some.inj stepped
        obtain ⟨-, rfl⟩ := MessageQueue.register_eq_some registered
        -- This is the first registration, which is made on an empty queue.
        exact fun _ _ => empty rfl at_
    | renotify =>
      simp only [waiterStep, at_] at stepped
      -- The program drains the queue next, so there is nothing to show yet.
      split at stepped <;> obtain rfl := Option.some.inj stepped <;>
        exact fun waits => nomatch waits
    | wait =>
      simp only [waiterStep, at_] at stepped
      split at stepped
      · obtain rfl := Option.some.inj stepped
        exact fun waits => nomatch waits
      · exact nomatch stepped
    | receive =>
      simp only [waiterStep, at_] at stepped
      split at stepped
      next drained =>
        -- The program waits only when it has found the queue empty.
        obtain rfl := Option.some.inj stepped
        exact fun _ _ => MessageQueue.receive_eq_none.mp drained
      next =>
        obtain rfl := Option.some.inj stepped
        intro waits
        exact nomatch (waits : WaiterPc.receive = .wait)
    | exited =>
      simp only [waiterStep, at_] at stepped
      exact nomatch stepped

/-- A program that waits registers without fail, and is attentive if it starts on an empty queue. -/
theorem waiter_run {messages : List Nat} {actions : List WaiterAction} {waiter : Waiter}
    (ran : (Machine.mk (waiterStep realtime)).run (Waiter.initial messages) actions =
      some waiter) :
    waiter.Registers ∧ ((Machine.mk (waiterStep realtime)).Along EmptyAtFirst
      (Waiter.initial messages) actions → waiter.Attentive) := by
  -- The balance is kept by every step.
  have balanced : waiter.Balanced := by
    have preserved : ∀ state action next, Waiter.Balanced state →
        (Machine.mk (waiterStep realtime)).step state action = some next → next.Balanced :=
      fun _ _ _ before stepped => before.step stepped
    have initial : (Waiter.initial messages).Balanced := rfl
    exact Machine.run_invariant preserved initial ran
  -- Attention is kept only where the queue was empty at the first registration.
  refine ⟨balanced.registers, fun along => balanced.attentive ?_⟩
  have preserved : ∀ state action next, Waiter.Watched state → EmptyAtFirst state action →
      (Machine.mk (waiterStep realtime)).step state action = some next → next.Watched :=
    fun _ _ _ before empty stepped => before.step empty stepped
  have initial : (Waiter.initial messages).Watched := fun waits => nomatch waits
  exact Machine.run_invariant_along preserved initial along ran

end Waiter

section Poller

variable {poller next : Poller}

/-- No call of `mq_notify` finds a registration, and none has failed. -/
def Poller.Registers (poller : Poller) : Prop :=
  (poller.pc = .notify → poller.queue.registered = false) ∧ poller.pc ≠ .exited

/-- No message is stranded where the program works and does not know of any. -/
def Poller.Attentive (poller : Poller) : Prop :=
  poller.pc = .work → poller.gotSig = false → poller.pending = 0 →
    poller.queue.messages = [] ∧ poller.queue.registered = true

/-- The registration, a signal or the flag is there, except where a registration is to be made. -/
structure Poller.Balanced (poller : Poller) : Prop where
  running : poller.pc ≠ .exited
  one : poller.queue.registered.toNat + poller.pending + poller.gotSig.toNat =
    if poller.pc = .notify then 0 else 1
  /-- The flag is cleared only where it has been found set. -/
  clears : poller.pc = .clear → poller.gotSig = true
  /-- Away from draining, a registration that has not fired is on an empty queue. -/
  watched : poller.pc ≠ .receive → poller.queue.registered = true → poller.queue.messages = []

/-- A balanced program registers without fail, and is attentive. -/
theorem Poller.Balanced.meets (balanced : poller.Balanced) :
    poller.Registers ∧ poller.Attentive := by
  -- Of the things that could wake the program up there is exactly one.
  have one := balanced.one
  refine ⟨⟨fun about => ?_, balanced.running⟩, fun works unknown none => ?_⟩
  · rw [if_pos about] at one
    exact Bool.toNat_eq_zero.mp (by omega)
  · rw [if_neg (by rw [works]; decide), unknown, none] at one
    have registered : poller.queue.registered = true := Bool.toNat_eq_one.mp (by simpa using one)
    exact ⟨balanced.watched (by rw [works]; decide) registered, registered⟩

/-- Every step keeps the balance. -/
theorem Poller.Balanced.step {action : PollerAction} (balanced : poller.Balanced)
    (stepped : pollerStep poller action = some next) : next.Balanced := by
  have registers := balanced.meets.1
  obtain ⟨running, one, clears, watched⟩ := balanced
  cases action with
  | arrives ahead size =>
    obtain rfl := Option.some.inj stepped
    refine ⟨running, ?_, clears, fun away still => ?_⟩
    · have signal := arrive_pending false ahead size
        (rfl : poller.queue.registered.toNat + poller.pending = _)
        (by split at one <;> omega)
      show _ + _ + _ = _
      rw [signal]
      exact one
    · -- A registration that has survived an arrival was not on an empty queue.
      obtain ⟨registered, filled⟩ := MessageQueue.registered_of_arrive still
      exact absurd (watched away registered) filled
  | handler =>
    simp only [pollerStep] at stepped
    split at stepped
    next delivered =>
      obtain rfl := Option.some.inj stepped
      refine ⟨running, ?_, fun _ => rfl, watched⟩
      -- The signal is the one thing that is there, so the flag has not been set yet.
      have signal := delivered.1
      show poller.queue.registered.toNat + (poller.pending - 1) + 1 = _
      dsimp only
      split at one <;> split <;> first | omega | contradiction
    · exact nomatch stepped
  | goesOn =>
    cases at_ : poller.pc with
    | test =>
      -- The test moves the program only, to the flag if it is set and to its work otherwise.
      rw [at_] at one watched
      simp only [pollerStep, at_] at stepped
      split at stepped
      next known =>
        obtain rfl := Option.some.inj stepped
        exact ⟨nofun, one, fun _ => known, fun _ => watched nofun⟩
      · obtain rfl := Option.some.inj stepped
        exact ⟨nofun, one, nofun, fun _ => watched nofun⟩
    | clear =>
      -- The flag was the one thing that was there, so now there is nothing.
      rw [at_, clears at_] at one
      rw [at_] at watched
      simp only [pollerStep, at_] at stepped
      obtain rfl := Option.some.inj stepped
      refine ⟨nofun, ?_, nofun, fun _ => watched nofun⟩
      show poller.queue.registered.toNat + poller.pending + 0 = 0
      exact Nat.succ.inj one
    | notify =>
      rw [at_, if_pos rfl] at one
      simp only [pollerStep, at_, MessageQueue.register, registers.1 at_] at stepped
      obtain rfl := Option.some.inj stepped
      refine ⟨nofun, ?_, nofun, fun away => absurd rfl away⟩
      -- The registration is the one thing that is there from now on.
      show 1 + poller.pending + poller.gotSig.toNat = 1
      omega
    | receive =>
      rw [at_] at one
      simp only [pollerStep, at_] at stepped
      split at stepped
      next drained =>
        -- The program leaves the loop only when it has found the queue empty.
        obtain rfl := Option.some.inj stepped
        exact ⟨nofun, one, nofun, fun _ _ => MessageQueue.receive_eq_none.mp drained⟩
      next size queue receives =>
        obtain rfl := Option.some.inj stepped
        have same := (MessageQueue.receive_eq_some receives).2
        refine ⟨nofun, ?_, nofun, fun away => absurd rfl away⟩
        show queue.registered.toNat + poller.pending + poller.gotSig.toNat = 1
        rw [same]
        exact one
    | work =>
      rw [at_] at one watched
      simp only [pollerStep, at_] at stepped
      obtain rfl := Option.some.inj stepped
      exact ⟨nofun, one, nofun, fun _ => watched nofun⟩
    | exited => exact absurd at_ running

/-- `mq_notify_via_signal` registers without fail, and is attentive whatever it starts on. -/
theorem mqNotifyViaSignal_run {messages : List Nat} {actions : List PollerAction}
    (ran : mqNotifyViaSignal.run (Poller.initial messages) actions = some poller) :
    poller.Registers ∧ poller.Attentive := by
  have preserved : ∀ state action next, Poller.Balanced state →
      mqNotifyViaSignal.step state action = some next → next.Balanced :=
    fun _ _ _ before stepped => before.step stepped
  -- The flag is set at the start, as if a signal had been handled.
  have initial : (Poller.initial messages).Balanced := ⟨nofun, rfl, nofun, nofun⟩
  exact (Machine.run_invariant preserved initial ran).meets

end Poller

/-- No program registers twice, nor strands a message if its queue is empty or it has a flag. -/
theorem mqNotify_strandsNone (messages : List Nat) :
    (∀ machine, machine = mqNotifySig ∨ machine = mqNotifySigwaitinfo → ∀ actions waiter,
      machine.run (Waiter.initial messages) actions = some waiter →
        waiter.Registers ∧
          (machine.Along EmptyAtFirst (Waiter.initial messages) actions → waiter.Attentive)) ∧
    ∀ actions poller, mqNotifyViaSignal.run (Poller.initial messages) actions = some poller →
      poller.Registers ∧ poller.Attentive := by
  refine ⟨fun machine which actions waiter ran => ?_, fun actions poller ran => ?_⟩
  · -- The kind of the signal makes no difference.
    obtain rfl | rfl := which
    · exact waiter_run ran
    · exact waiter_run ran
  · exact mqNotifyViaSignal_run ran

/-- Two messages are drained after a signal, and a message is drained that was there before. -/
theorem mqNotify_strandsNone_drained :
    (∃ waiter, mqNotifySig.run (Waiter.initial [])
        [.goesOn, .arrives 0 5, .arrives 1 7, .goesOn, .goesOn, .goesOn, .goesOn, .goesOn] =
          some waiter ∧ waiter.read = [5, 7] ∧ waiter.Attentive) ∧
    ∃ poller, mqNotifyViaSignal.run (Poller.initial [5])
        [.goesOn, .goesOn, .goesOn, .goesOn, .goesOn] = some poller ∧
          poller.read = [5] ∧ poller.Registers ∧ poller.Attentive := by
  constructor
  -- Two messages come to an empty queue, and one notification is enough for both.
  · obtain ⟨waiter, ran, read⟩ : ∃ waiter, mqNotifySig.run (Waiter.initial [])
        [.goesOn, .arrives 0 5, .arrives 1 7, .goesOn, .goesOn, .goesOn, .goesOn, .goesOn] =
          some waiter ∧ waiter.read = [5, 7] := ⟨_, rfl, rfl⟩
    have strandsNone := (mqNotify_strandsNone []).1 mqNotifySig (.inl rfl) _ waiter ran
    exact ⟨waiter, ran, read, strandsNone.2 (by decide +kernel)⟩
  -- The message was there before, and the polling program reads it at once.
  · obtain ⟨poller, ran, read⟩ : ∃ poller, mqNotifyViaSignal.run (Poller.initial [5])
        [.goesOn, .goesOn, .goesOn, .goesOn, .goesOn] = some poller ∧ poller.read = [5] :=
      ⟨_, rfl, rfl⟩
    exact ⟨poller, ran, read, (mqNotify_strandsNone [5]).2 _ poller ran⟩

/-- A message that arrives before the first registration is stranded, as the source warns. -/
theorem mqNotifySig_strandsFirst :
    ¬ ∀ actions waiter, mqNotifySig.run (Waiter.initial []) actions = some waiter →
      waiter.Attentive := by
  -- The message is there before mq_notify(), so no notification comes for it.
  intro attentive
  have stranded := attentive [.arrives 0 5, .goesOn] _ rfl rfl rfl
  exact nomatch stranded.1

end SysProg.Pmsg
