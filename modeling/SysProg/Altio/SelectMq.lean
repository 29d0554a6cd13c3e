import SysProg.Lib.Machine
import SysProg.Lib.Memory

/-! Waiting for input on message queues, by children that copy the messages to a pipe. -/

namespace SysProg.Altio

/-- `MAX_MTEXT`. -/
def maxMtext : Nat := 400

/-- `offsetof(struct pbuf, mtext)`. -/
def offsetofMtext : Nat := 16

/-- How many bytes a pipe holds. -/
def pipeCapacity : Nat := 65536

/-- A message on a queue, whose body `msgrcv` returns as a whole. -/
structure Message where
  mtype : Int64
  mtext : List UInt8
  fits : mtext.length ≤ maxMtext
  deriving DecidableEq

/-- `struct pbuf`, with the bytes of `mtext` that are in use. -/
structure Pbuf where
  /-- Origin of message. -/
  msqid : Int32
  /-- Number of bytes used in `mtext`. -/
  len : Int32
  mtype : Int64
  mtext : List UInt8
  deriving DecidableEq

/-- What a child makes of a message of its queue. -/
def Message.pbuf (message : Message) (msqid : Int32) : Pbuf where
  msqid := msqid
  len := Int32.ofNat message.mtext.length
  mtype := message.mtype
  mtext := message.mtext

/-- The bytes of the structure before `mtext`. -/
def Pbuf.header (pmsg : Pbuf) : List UInt8 :=
  Memory.bytesOf pmsg.msqid.toUInt32 ++ (Memory.bytesOf pmsg.len.toUInt32 ++
    Memory.bytesOfLong pmsg.mtype.toUInt64)

/-- The bytes that a child writes. -/
def Pbuf.bytes (pmsg : Pbuf) : List UInt8 :=
  pmsg.header ++ pmsg.mtext

/-- An `int` where a `size_t` is expected. -/
def sizeT (value : Int32) : Nat :=
  (value.toInt % 2 ^ 64).toNat

/-- The structure in memory, as it is handed to `printf`. -/
def pbufAt (memory : Memory) : Pbuf where
  msqid := (memory.word 0).toInt32
  len := (memory.word 4).toInt32
  mtype := (memory.long 8).toInt64
  mtext := memory.load offsetofMtext (sizeT (memory.word 4).toInt32)

/-- What a line on the terminal says about a message. -/
structure Displayed where
  msqid : Int32
  mtype : Int64
  length : Int32
  mtext : List UInt8
  deriving DecidableEq

/-- The line that is printed, where `"%.*s"` stops at the first null byte of the body. -/
def Pbuf.printed (pmsg : Pbuf) : Displayed where
  msqid := pmsg.msqid
  mtype := pmsg.mtype
  length := pmsg.len
  mtext := pmsg.mtext.takeWhile (· ≠ 0)

/-- Where the parent stands. -/
inductive ParentPc where
  /-- `select(nfds, &readfds, NULL, NULL, NULL)`. -/
  | select
  /-- The terminal is ready, and perhaps the pipe is too. -/
  | readTerminal (pipeReady : Bool)
  /-- `read(pfd[0], &pmsg, offsetof(struct pbuf, mtext))`. -/
  | readHeader
  /-- `read(pfd[0], &pmsg.mtext, pmsg.len)`. -/
  | readBody (pmsg : Memory)
  /-- `fatal("EOF on pipe")`. -/
  | fatal

/-- The queues, the children, the pipe and the parent. -/
structure SelectMq where
  queues : Int32 → List Message
  /-- The message that the child of a queue has received and not written yet. -/
  children : Int32 → Option Message
  pipe : List UInt8
  parent : ParentPc
  /-- The lines that have been printed, in order. -/
  displayed : List Displayed
  /-- The messages that have been sent to each queue, in order. -/
  sent : Int32 → List Message

/-- All children have been created, and nothing has been sent. -/
def SelectMq.initial : SelectMq where
  queues _ := []
  children _ := none
  pipe := []
  parent := .select
  displayed := []
  sent _ := []

/-- What happens next. -/
inductive Action where
  /-- Another process sends a message to a queue. -/
  | send (msqid : Int32) (message : Message)
  /-- `msgrcv` returns in the child of a queue. -/
  | msgrcv (msqid : Int32)
  /-- `write` returns in the child of a queue. -/
  | write (msqid : Int32)
  | select (terminalReady : Bool)
  | readTerminal
  /-- The header is read into a structure that is not initialised. -/
  | readHeader (pmsg : Memory)
  | readBody

/-- The system, one step at a time, with a child for each of the queues. -/
def selectStep (msqids : Finset Int32) (system : SelectMq) (action : Action) : Option SelectMq :=
  match action, system.parent with
  | .send msqid message, _ =>
    if msqid ∈ msqids then
      some { system with
        queues := Function.update system.queues msqid (system.queues msqid ++ [message])
        sent := Function.update system.sent msqid (system.sent msqid ++ [message]) }
    else none
  | .msgrcv msqid, _ =>
    if msqid ∈ msqids ∧ system.children msqid = none then
      match system.queues msqid with
      | [] => none
      | message :: rest =>
        some { system with
          queues := Function.update system.queues msqid rest
          children := Function.update system.children msqid (some message) }
    else none
  | .write msqid, _ =>
    match system.children msqid with
    | none => none
    | some message =>
      -- The write is atomic, and blocks until there is room for all of it.
      if system.pipe.length + (message.pbuf msqid).bytes.length ≤ pipeCapacity then
        some { system with
          pipe := system.pipe ++ (message.pbuf msqid).bytes
          children := Function.update system.children msqid none }
      else none
  | .select terminalReady, .select =>
    if terminalReady then some { system with parent := .readTerminal (system.pipe ≠ []) }
    else if system.pipe ≠ [] then some { system with parent := .readHeader }
    else none
  | .readTerminal, .readTerminal pipeReady =>
    if pipeReady then some { system with parent := .readHeader }
    else some { system with parent := .select }
  | .readHeader pmsg, .readHeader =>
    -- The parent has a write end of the pipe itself, so an empty pipe is not at its end.
    if system.pipe = [] then none
    else some { system with
      pipe := system.pipe.drop offsetofMtext
      parent := .readBody (pmsg.store 0 (system.pipe.take offsetofMtext)) }
  | .readBody, .readBody pmsg =>
    let count := sizeT (pmsg.word 4).toInt32
    -- Reading nothing returns 0, whatever there is in the pipe.
    if count = 0 then some { system with parent := .fatal }
    else if system.pipe = [] then none
    else some { system with
      pipe := system.pipe.drop count
      parent := .select
      displayed := system.displayed ++
        [(pbufAt (pmsg.store offsetofMtext (system.pipe.take count))).printed] }
  | _, _ => none

/-- The parent, the children and all other processes, interleaved in any way. -/
def selectMq (msqids : Finset Int32) : Machine SelectMq Action :=
  ⟨selectStep msqids⟩

end SysProg.Altio
