import SysProg.Lib.Decimal
import SysProg.Lib.Dispenser
import SysProg.Lib.Machine

/-! The servers that hand out sequence numbers, by stream sockets and by FIFOs. -/

namespace SysProg.Seqnum

open Decimal Dispenser

/-- `INT_LEN`, the size of a string able to hold the largest integer. -/
def intLen : Nat := 30

/-- What `read(fd, &ch, 1)` brings, unless it brings end-of-file. -/
inductive ReadResult where
  | byte (ch : UInt8)
  /-- `EINTR`. -/
  | interrupted
  /-- Any other error. -/
  | error
  deriving DecidableEq, Repr

/-- `readLine`, with what it has put into the buffer so far, up to the end of the list or a line. -/
def readLine (n : Nat) (buf : List UInt8) : List ReadResult → Option (List UInt8)
  -- End-of-file: what has been read so far is the line, be it empty.
  | [] => some buf
  | .interrupted :: rest => readLine n buf rest
  | .error :: _ => none
  | .byte ch :: rest =>
    -- Bytes that do not fit are discarded.
    let buf := if buf.length < n - 1 then buf ++ [ch] else buf
    if ch = 10 then some buf else readLine n buf rest

/-- `strtol` with base 10, for a `long` of 64 bits. -/
def strtol (text : List UInt8) : Int :=
  max (-2 ^ 63) (min (2 ^ 63 - 1) (readInt text))

/-- `atoi`, which is `strtol` cut down to an `int`. -/
def atoi (text : List UInt8) : BitVec 32 :=
  BitVec.ofInt 32 (strtol text)

/-- `snprintf(seqNumStr, INT_LEN, "%d\n", seqNum)`. -/
def seqNumStr (seqNum : BitVec 32) : List UInt8 :=
  (intText seqNum.toInt ++ [10]).take (intLen - 1)

/-- What a server has handed out so far. -/
structure State where
  seqNum : BitVec 32
  /-- The runs granted, with what each client asked for and what it reads as its start. -/
  grants : List Grant
  deriving DecidableEq, Repr

/-- A server that starts with this number. -/
def initial (seqNum : BitVec 32) : State :=
  ⟨seqNum, []⟩

/-- What one round of the loop of a socket server meets. -/
inductive Arrival where
  /-- `accept` fails. -/
  | acceptFails
  /-- A client connects; without a `cut` the whole response reaches it, else so many bytes. -/
  | connection (reads : List ReadResult) (cut : Option Nat)
  deriving DecidableEq, Repr

/-- The length that the server reads from a connection, unless it rejects the request. -/
def requestLen (reads : List ReadResult) : Option (BitVec 32) :=
  match readLine intLen [] reads with
  -- Failed read; skip request.
  | none | some [] => none
  | some reqLenStr =>
    -- Bad request; skip it.
    if (atoi reqLenStr).toInt ≤ 0 then none else some (atoi reqLenStr)

/-- The line that the client sends. -/
def sentLine : List ReadResult → List UInt8
  | [] | .error :: _ => []
  | .interrupted :: rest => sentLine rest
  | .byte ch :: rest => if ch = 10 then [ch] else ch :: sentLine rest

/-- The number that a client reads from what has reached it before the connection is closed. -/
def clientReads (received : List UInt8) : Option Int :=
  match readLine intLen [] (received.map .byte) with
  -- Unexpected EOF from server.
  | none | some [] => none
  | some text => some (readInt text)

/-- What reaches the client of a response. -/
def delivered (response : List UInt8) : Option Nat → List UInt8
  | none => response
  | some count => response.take count

/-- One round of the loop that `is_seqnum_sv` and `is_seqnum_v2_sv` share. -/
def serve (state : State) : Arrival → State
  | .acceptFails => state
  | .connection reads cut =>
    match requestLen reads with
    | none => state
    | some reqLen =>
      let asked := readInt (sentLine reads)
      let start := clientReads (delivered (seqNumStr state.seqNum) cut)
      -- The counter moves on whether or not the client has got its response.
      { seqNum := state.seqNum + reqLen, grants := state.grants ++ [⟨asked, start⟩] }

/-- The loop of `is_seqnum_sv`. -/
def isSeqnumSv : Machine State Arrival where
  step state arrival := some (serve state arrival)

/-- The loop of `is_seqnum_v2_sv`. -/
def isSeqnumV2Sv : Machine State Arrival where
  step state arrival := some (serve state arrival)

/-- A request to the FIFO server. -/
structure Request where
  pid : BitVec 32
  seqLen : BitVec 32
  deriving DecidableEq, Repr

/-- What one round of the loop of the FIFO server meets. -/
inductive FifoArrival where
  /-- Either partial read or error. -/
  | readFails
  /-- A request is read; the client's FIFO may fail to open, and the response to be written. -/
  | request (req : Request) (opens written : Bool)
  deriving DecidableEq, Repr

/-- One round of the loop of `fifo_seqnum_server`. -/
def fifoServe (state : State) : FifoArrival → State
  | .readFails => state
  | .request req opens written =>
    -- Open failed, give up on client.
    if opens = false then state
    else
      let start := if written then some state.seqNum.toInt else none
      { seqNum := state.seqNum + req.seqLen
        grants := state.grants ++ [⟨req.seqLen.toInt, start⟩] }

/-- The loop of `fifo_seqnum_server`. -/
def fifoSeqnumServer : Machine State FifoArrival where
  step state arrival := some (fifoServe state arrival)

end SysProg.Seqnum
