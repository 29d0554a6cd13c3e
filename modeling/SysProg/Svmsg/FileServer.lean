import SysProg.Lib.Machine
import Mathlib.Logic.Function.Basic

/-! The server that sends files to its clients in messages, with its children and the clients. -/

namespace SysProg.Svmsg

/-- A string or the contents of a file. -/
abbrev Bytes := List UInt8

/-- `RESP_MSG_SIZE`. -/
def respMsgSize : Nat := 8192

/-- `PATH_MAX`. -/
def pathMax : Nat := 4096

/-- The types of the responses. -/
inductive RespType where
  /-- `RESP_MT_FAILURE`: the file could not be opened. -/
  | failure
  /-- `RESP_MT_DATA`: the message contains file data. -/
  | data
  /-- `RESP_MT_END`: the file data is complete. -/
  | end_
  deriving DecidableEq, Repr

/-- A `struct responseMsg`, with the bytes of its text. -/
structure ResponseMsg where
  mtype : RespType
  data : Bytes
  deriving DecidableEq, Repr

/-- A `struct requestMsg`. -/
structure RequestMsg (ClientId : Type*) where
  clientId : ClientId
  pathname : Bytes

/-- Where the server stands. -/
inductive ServerPc (ClientId : Type*) where
  /-- `msgget(SERVER_KEY, IPC_CREAT | IPC_EXCL | ...)`. -/
  | msgget
  /-- `sigaction(SIGCHLD, ...)`. -/
  | sigaction
  /-- `msgrcv` at the head of the loop. -/
  | msgrcv
  /-- `fork()`, with the request that was received. -/
  | fork (req : RequestMsg ClientId)
  /-- `msgctl(serverId, IPC_RMID, NULL)`. -/
  | msgctl
  | exited

/-- Where a child stands in `serveRequest`. -/
inductive ChildPc where
  /-- `open(req->pathname, O_RDONLY)`. -/
  | openFile
  /-- `msgsnd` of the failure. -/
  | sendFailure
  /-- `read(fd, ...)`, with so much of the file left to read. -/
  | read (rest : Bytes)
  /-- `msgsnd` of what was read, with so much of the file left to read. -/
  | sendData (numRead rest : Bytes)
  /-- `msgsnd` of the end. -/
  | sendEnd
  | exited
  deriving DecidableEq, Repr

/-- A child of the server. -/
structure Child (ClientId : Type*) where
  req : RequestMsg ClientId
  pc : ChildPc

/-- How a client comes to its end. -/
inductive Outcome where
  /-- A call failed. -/
  | errExit
  /-- The server could not open the file. -/
  | failure
  /-- All messages of a file have been received. -/
  | received
  deriving DecidableEq, Repr

/-- Where a client stands. -/
inductive ClientPc where
  /-- The check of the length of the pathname. -/
  | checkPathname
  /-- `msgget(SERVER_KEY, S_IWUSR)`. -/
  | msggetServer
  /-- `msgget(IPC_PRIVATE, ...)`. -/
  | msggetPrivate
  /-- `atexit(removeQueue)`. -/
  | atexit
  /-- `msgsnd(serverId, &req, ...)`. -/
  | msgsnd
  /-- `msgrcv` of the first response. -/
  | firstMsgrcv
  /-- `msgrcv` in the loop. -/
  | msgrcv
  /-- `removeQueue()` at exit. -/
  | removeQueue (outcome : Outcome)
  | exited (outcome : Outcome)
  deriving DecidableEq, Repr

/-- A client. -/
structure Client where
  pc : ClientPc
  totBytes : Nat
  numMsgs : Nat
  /-- All responses it has received so far. -/
  got : List ResponseMsg

/-- The server, its children, the clients, and the message queues. -/
structure State (ClientId : Type*) where
  server : ServerPc ClientId
  /-- The server's message queue, while it exists. -/
  serverQueue : Option (List (RequestMsg ClientId))
  /-- The children, by the order in which they were forked. -/
  children : Nat → Option (Child ClientId)
  forked : Nat
  clients : ClientId → Client
  /-- The clients' private message queues, while they exist. -/
  queues : ClientId → Option (List ResponseMsg)
  /-- All responses that have ever been put on a client's queue. -/
  sent : ClientId → List ResponseMsg

/-- What a system call answers. -/
inductive Answer where
  | ok
  /-- `read` returns this many bytes. -/
  | bytes (count : Nat)
  | eintr
  | error
  deriving DecidableEq, Repr

/-- What the server and the clients find when they start. -/
structure Setup (ClientId : Type*) where
  /-- The contents of the files, by pathname. -/
  files : Bytes → Option Bytes
  /-- The pathname each client was called with. -/
  argument : ClientId → Bytes

variable {ClientId : Type*}

/-- Nothing has been run. -/
def initial : State ClientId where
  server := .msgget
  serverQueue := none
  children := fun _ => none
  forked := 0
  clients := fun _ => ⟨.checkPathname, 0, 0, []⟩
  queues := fun _ => none
  sent := fun _ => []

/-- One step of the server. -/
def serverStep (state : State ClientId) (answer : Answer) : Option (State ClientId) :=
  match state.server, answer with
  | .msgget, .ok =>
    if state.serverQueue.isNone then
      some { state with server := .sigaction, serverQueue := some [] }
    else none
  | .sigaction, .ok => some { state with server := .msgrcv }
  | .msgget, .error | .sigaction, .error => some { state with server := .exited }
  | .msgrcv, .ok =>
    match state.serverQueue with
    | some (req :: rest) => some { state with server := .fork req, serverQueue := some rest }
    | _ => none
  -- The handler of `SIGCHLD` interrupts `msgrcv`, which is then called again.
  | .msgrcv, .eintr => some state
  | .msgrcv, .error => some { state with server := .msgctl }
  | .fork req, .ok =>
    some { state with
      server := .msgrcv
      children := Function.update state.children state.forked (some ⟨req, .openFile⟩)
      forked := state.forked + 1 }
  | .fork _, .error => some { state with server := .msgctl }
  | .msgctl, .ok => some { state with server := .exited, serverQueue := none }
  | .msgctl, .error => some { state with server := .exited }
  | _, _ => none

/-- A child goes on at another instruction. -/
def State.childAt (state : State ClientId) (child : Nat) (req : RequestMsg ClientId)
    (pc : ChildPc) : State ClientId :=
  { state with children := Function.update state.children child (some ⟨req, pc⟩) }

variable [DecidableEq ClientId]

/-- `msgsnd` of a response, which fails where the queue does not exist. -/
def State.msgsnd (state : State ClientId) (clientId : ClientId) (resp : ResponseMsg) :
    Option (State ClientId) :=
  (state.queues clientId).map fun queue => { state with
    queues := Function.update state.queues clientId (some (queue ++ [resp]))
    sent := Function.update state.sent clientId (state.sent clientId ++ [resp]) }

/-- The text of the failure, with its terminating null byte. -/
def couldntOpen : Bytes :=
  [67, 111, 117, 108, 100, 110, 39, 116, 32, 111, 112, 101, 110, 0]

/-- One step of a child in `serveRequest`. -/
def childStep (setup : Setup ClientId) (state : State ClientId) (child : Nat) (answer : Answer) :
    Option (State ClientId) :=
  (state.children child).bind fun ⟨req, pc⟩ =>
    match pc, answer with
    | .openFile, .ok =>
      (setup.files req.pathname).map fun contents => state.childAt child req (.read contents)
    | .openFile, .error | .openFile, .eintr => some (state.childAt child req .sendFailure)
    | .sendFailure, .ok =>
      (state.msgsnd req.clientId ⟨.failure, couldntOpen⟩).map (·.childAt child req .exited)
    | .sendFailure, .error | .sendFailure, .eintr => some (state.childAt child req .exited)
    | .read rest, .bytes count =>
      if count ≤ respMsgSize ∧ count ≤ rest.length ∧ (count = 0 ↔ rest = []) then
        if 0 < count then
          some (state.childAt child req (.sendData (rest.take count) (rest.drop count)))
        else some (state.childAt child req .sendEnd)
      else none
    -- The loop ends at a failing `read` as it does at the end of the file.
    | .read _, .error | .read _, .eintr => some (state.childAt child req .sendEnd)
    | .sendData numRead rest, .ok =>
      (state.msgsnd req.clientId ⟨.data, numRead⟩).map (·.childAt child req (.read rest))
    | .sendData _ _, .error | .sendData _ _, .eintr => some (state.childAt child req .sendEnd)
    | .sendEnd, .ok =>
      (state.msgsnd req.clientId ⟨.end_, []⟩).map (·.childAt child req .exited)
    | .sendEnd, .error | .sendEnd, .eintr => some (state.childAt child req .exited)
    | _, _ => none

/-- A client goes on at another instruction. -/
def State.clientAt (state : State ClientId) (client : ClientId) (pc : ClientPc) :
    State ClientId :=
  { state with
    clients := Function.update state.clients client { state.clients client with pc := pc } }

/-- `msgrcv` takes the first message from a client's queue. -/
def State.msgrcv (state : State ClientId) (client : ClientId) (next : RespType → ClientPc) :
    Option (State ClientId) :=
  match state.queues client with
  | some (resp :: rest) =>
    let before := state.clients client
    some { state with
      queues := Function.update state.queues client (some rest)
      clients := Function.update state.clients client {
        pc := next resp.mtype
        totBytes := before.totBytes + resp.data.length
        numMsgs := before.numMsgs + 1
        got := before.got ++ [resp] } }
  | _ => none

/-- The loop goes on as long as the responses contain file data. -/
def afterResponse (mtype : RespType) : ClientPc :=
  if mtype = .data then .msgrcv else .removeQueue .received

/-- The first response may be a failure. -/
def afterFirstResponse (mtype : RespType) : ClientPc :=
  if mtype = .failure then .removeQueue .failure else afterResponse mtype

/-- One step of a client. -/
def clientStep (setup : Setup ClientId) (state : State ClientId) (client : ClientId)
    (answer : Answer) : Option (State ClientId) :=
  match (state.clients client).pc, answer with
  | .checkPathname, .ok =>
    some (state.clientAt client
      (if (setup.argument client).length > pathMax - 1 then .exited .errExit else .msggetServer))
  | .msggetServer, .ok =>
    if state.serverQueue.isSome then some (state.clientAt client .msggetPrivate) else none
  | .msggetPrivate, .ok =>
    some ({ state with queues := Function.update state.queues client (some []) }.clientAt client
      .atexit)
  | .atexit, .ok => some (state.clientAt client .msgsnd)
  | .msggetServer, .error | .msggetPrivate, .error | .atexit, .error =>
    some (state.clientAt client (.exited .errExit))
  | .msgsnd, .ok =>
    state.serverQueue.map fun requests =>
      let req : RequestMsg ClientId := ⟨client, setup.argument client⟩
      { state with serverQueue := some (requests ++ [req]) }.clientAt client .firstMsgrcv
  | .firstMsgrcv, .ok => state.msgrcv client afterFirstResponse
  | .msgrcv, .ok => state.msgrcv client afterResponse
  | .msgsnd, .error | .msgsnd, .eintr | .firstMsgrcv, .error | .firstMsgrcv, .eintr
  | .msgrcv, .error | .msgrcv, .eintr => some (state.clientAt client (.removeQueue .errExit))
  | .removeQueue outcome, .ok =>
    some ({ state with queues := Function.update state.queues client none }.clientAt client
      (.exited outcome))
  | .removeQueue outcome, .error => some (state.clientAt client (.exited outcome))
  | _, _ => none

/-- Who makes the next step. -/
inductive Actor (ClientId : Type*) where
  | server
  | child (child : Nat)
  | client (client : ClientId)
  deriving DecidableEq, Repr

/-- The server, its children and all clients, one system call at a time. -/
def fileServer (setup : Setup ClientId) : Machine (State ClientId) (Actor ClientId × Answer) where
  step
    | state, (.server, answer) => serverStep state answer
    | state, (.child child, answer) => childStep setup state child answer
    | state, (.client client, answer) => clientStep setup state client answer

end SysProg.Svmsg
