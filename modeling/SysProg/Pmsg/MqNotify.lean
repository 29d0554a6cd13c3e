import SysProg.Lib.Machine
import SysProg.Lib.MessageQueue

/-! Programs that are notified of messages by signals, and drain their queue each time. -/

namespace SysProg.Pmsg

/-- A signal is sent to the process, and a standard signal that is pending stays pending once. -/
def raise (realtime : Bool) (pending : Nat) : Nat :=
  if realtime then pending + 1 else 1

/-- Where a program that waits for the signal stands. -/
inductive WaiterPc where
  /-- The first `mq_notify(mqd, &sev)`. -/
  | notify
  /-- `sigsuspend(&emptyMask)`, or `sigwaitinfo(&blockMask, &si)`. -/
  | wait
  /-- `mq_notify(mqd, &sev)` in the loop. -/
  | renotify
  /-- `mq_receive(mqd, buffer, attr.mq_msgsize, NULL)`. -/
  | receive
  /-- `errExit("mq_notify")`. -/
  | exited
  deriving DecidableEq, Repr

/-- A program that waits for the signal, and its queue, where a message counts by its size. -/
structure Waiter where
  queue : MessageQueue Nat
  /-- How many signals are pending, which are blocked unless the program waits. -/
  pending : Nat
  pc : WaiterPc
  /-- The sizes that have been printed. -/
  read : List Nat
  deriving DecidableEq, Repr

/-- The program has been started, with these messages on its queue. -/
def Waiter.initial (messages : List Nat) : Waiter :=
  ⟨⟨messages, false⟩, 0, .notify, []⟩

/-- What happens next to a program that waits. -/
inductive WaiterAction where
  /-- Some other process sends a message. -/
  | arrives (ahead size : Nat)
  | goesOn
  deriving DecidableEq, Repr

/-- A program that waits for the signal, one step at a time. -/
def waiterStep (realtime : Bool) (waiter : Waiter) : WaiterAction → Option Waiter
  | .arrives ahead size =>
    some { waiter with
      queue := waiter.queue.arrive ahead size
      pending := if waiter.queue.fires then raise realtime waiter.pending else waiter.pending }
  | .goesOn =>
    match waiter.pc with
    | .notify | .renotify =>
      match waiter.queue.register with
      | none => some { waiter with pc := .exited }
      | some queue =>
        let pc := if waiter.pc = .notify then .wait else .receive
        some { waiter with queue, pc }
    | .wait =>
      if 0 < waiter.pending then
        some { waiter with pending := waiter.pending - 1, pc := .renotify }
      else none
    | .receive =>
      match waiter.queue.receive with
      | none => some { waiter with pc := .wait }
      | some (size, queue) => some { waiter with queue, read := waiter.read ++ [size] }
    | .exited => none

/-- `mq_notify_sig`, which uses `SIGUSR1`. -/
def mqNotifySig : Machine Waiter WaiterAction :=
  ⟨waiterStep false⟩

/-- `mq_notify_sigwaitinfo`, which uses `SIGRTMIN`. -/
def mqNotifySigwaitinfo : Machine Waiter WaiterAction :=
  ⟨waiterStep true⟩

/-- Where `mq_notify_via_signal` stands. -/
inductive PollerPc where
  /-- `if (gotSig)`. -/
  | test
  /-- `gotSig = 0`. -/
  | clear
  /-- `mq_notify(mqd, &sev)`. -/
  | notify
  /-- `mq_receive(mqd, msg, attr.mq_msgsize, NULL)`. -/
  | receive
  /-- `sleep(5)`. -/
  | work
  /-- `errExit("mq_notify")`. -/
  | exited
  deriving DecidableEq, Repr

/-- `mq_notify_via_signal` and its queue. -/
structure Poller where
  queue : MessageQueue Nat
  /-- How many signals are pending, which are never blocked. -/
  pending : Nat
  gotSig : Bool
  pc : PollerPc
  /-- The sizes that have been printed. -/
  read : List Nat
  deriving DecidableEq, Repr

/-- The program has been started, with these messages on its queue. -/
def Poller.initial (messages : List Nat) : Poller :=
  ⟨⟨messages, false⟩, 0, true, .test, []⟩

/-- What happens next to `mq_notify_via_signal`. -/
inductive PollerAction where
  /-- Some other process sends a message. -/
  | arrives (ahead size : Nat)
  /-- The signal is delivered, and `handler` runs. -/
  | handler
  | goesOn
  deriving DecidableEq, Repr

/-- `mq_notify_via_signal`, one step at a time. -/
def pollerStep (poller : Poller) : PollerAction → Option Poller
  | .arrives ahead size =>
    some { poller with
      queue := poller.queue.arrive ahead size
      pending := if poller.queue.fires then raise false poller.pending else poller.pending }
  | .handler =>
    if 0 < poller.pending ∧ poller.pc ≠ .exited then
      some { poller with pending := poller.pending - 1, gotSig := true }
    else none
  | .goesOn =>
    match poller.pc with
    | .test =>
      if poller.gotSig then some { poller with pc := .clear } else some { poller with pc := .work }
    | .clear => some { poller with gotSig := false, pc := .notify }
    | .notify =>
      match poller.queue.register with
      | none => some { poller with pc := .exited }
      | some queue => some { poller with queue, pc := .receive }
    | .receive =>
      match poller.queue.receive with
      | none => some { poller with pc := .work }
      | some (size, queue) => some { poller with queue, read := poller.read ++ [size] }
    | .work => some { poller with pc := .test }
    | .exited => none

/-- `mq_notify_via_signal`, which uses `SIGUSR1`. -/
def mqNotifyViaSignal : Machine Poller PollerAction :=
  ⟨pollerStep⟩

end SysProg.Pmsg
