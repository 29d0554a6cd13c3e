import SysProg.Lib.Machine
import SysProg.Lib.Segments

/-! The sender of a reliable transport protocol, with a receiver behind an unreliable network. -/

namespace SysProg.Networks.TcpSender

/-- A segment with its sequence number. -/
abbrev Packet := NumberedSegment UInt8

variable {Memory : Type}

/-- The variables of the sender, what is in the network, and the receiver. -/
structure State (Memory : Type) where
  nextSeqNum : Int
  sendBase : Int
  /-- The timer is running. -/
  timer : Bool
  dupACKcount : Int
  /-- All segments that have been made, in order. -/
  segments : List Packet
  /-- What has been sent, each of which arrives any number of times, and in any order. -/
  sent : List Packet
  /-- The acknowledgements, for which the same holds. -/
  acks : List Int
  receiver : Memory

/-- The events of the sender, and the arrival of a segment at the receiver. -/
inductive Event where
  | getDataFromApp (data : List UInt8)
  | timerTimeout
  | ackReceived (ackNum : Int)
  | segmentArrives (segment : Packet)
  deriving DecidableEq

/-- Nothing has been sent. -/
def initial (receiver : Receiver UInt8 Memory) (initialSeqNumber : Int) : State Memory where
  nextSeqNum := initialSeqNumber
  sendBase := initialSeqNumber
  timer := false
  dupACKcount := 0
  segments := []
  sent := []
  acks := []
  receiver := receiver.start

/-- What the application has passed to the sender. -/
def State.stream (state : State Memory) : List UInt8 := state.segments.flatMap NumberedSegment.data

/-- The segment with the smallest number that has not been acknowledged. -/
def State.minSeqSegment (state : State Memory) : Option Packet :=
  state.segments.find? fun segment => state.sendBase < segment.seq + segment.data.length

/-- A segment is sent again, if there is one. -/
def State.retransmit (state : State Memory) (segment : Option Packet) : State Memory :=
  { state with sent := segment.toList ++ state.sent }

/-- The acknowledgement is a duplicate: three of these make the sender retransmit. -/
def State.dupACK (state : State Memory) : State Memory :=
  if state.dupACKcount + 1 = 3 then
    { state.retransmit (state.segments.find? fun segment => segment.seq = state.sendBase) with
      dupACKcount := 0 }
  else { state with dupACKcount := state.dupACKcount + 1 }

/-- One turn of the loop of the sender, with fast retransmit or without, or of the receiver. -/
def step (fast : Bool) (receiver : Receiver UInt8 Memory) (initialSeqNumber : Int)
    (state : State Memory) : Event → Option (State Memory)
  | .getDataFromApp data =>
    let segment : Packet := ⟨state.nextSeqNum, data⟩
    -- The number is an `int`, which must not overflow.
    if state.nextSeqNum + data.length < 2 ^ 31 then
      some { state with
        segments := state.segments ++ [segment]
        sent := segment :: state.sent
        timer := true
        nextSeqNum := state.nextSeqNum + data.length }
    else none
  | .timerTimeout =>
    if state.timer then some { state.retransmit state.minSeqSegment with timer := true } else none
  | .ackReceived ackNum =>
    if state.acks.contains ackNum then
      if state.sendBase < ackNum then
        some { state with sendBase := ackNum, timer := !decide (ackNum = state.nextSeqNum) }
      else if fast ∧ ackNum = state.sendBase then some state.dupACK
      else some state
    else none
  | .segmentArrives segment =>
    if state.sent.contains segment then
      let memory := receiver.receive state.receiver segment
      -- The answer is the number of the byte that is expected next.
      some { state with
        receiver := memory
        acks := (initialSeqNumber + (receiver.delivered memory).length) :: state.acks }
    else none

/-- The sender, the network and the receiver. -/
def machine (fast : Bool) (receiver : Receiver UInt8 Memory) (initialSeqNumber : Int) :
    Machine (State Memory) Event where
  step := step fast receiver initialSeqNumber

end SysProg.Networks.TcpSender
