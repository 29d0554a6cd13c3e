import SysProg.Lib.Memory
import SysProg.Lib.Transfers

/-! Reading and writing so many bytes, in spite of partial transfers and of signals. -/

namespace SysProg.Sockets

/-- The variables of `readn`, the memory, and the bytes that come before end-of-file. -/
structure ReadnState where
  totRead : Nat
  /-- The address at which the next bytes are stored. -/
  buf : Nat
  mem : Memory
  input : List UInt8

/-- What `readn` returns, and what it leaves. -/
structure ReadnResult where
  value : Int
  mem : Memory
  input : List UInt8

/-- The loop of `readn`, where so many calls of `read` have been made. -/
def readnLoop (answers : Nat → Transfer) (n : Nat) : Nat → Nat → ReadnState → Option ReadnResult
  | 0, _, _ => none
  | fuel + 1, call, state =>
    if state.totRead < n then
      match answers call with
      | .part more =>
        let bytes := state.input.take (Transfer.amount more (n - state.totRead))
        -- EOF
        if bytes = [] then some ⟨state.totRead, state.mem, state.input⟩
        else readnLoop answers n fuel (call + 1)
          { totRead := state.totRead + bytes.length
            buf := state.buf + bytes.length
            mem := state.mem.store state.buf bytes
            input := state.input.drop bytes.length }
      | .nothing => some ⟨state.totRead, state.mem, state.input⟩
      -- Interrupted: restart `read`.
      | .interrupted => readnLoop answers n fuel (call + 1) state
      | .error => some ⟨-1, state.mem, state.input⟩
    else some ⟨state.totRead, state.mem, state.input⟩

/-- `readn(fd, buffer, n)`, which makes at most so many calls of `read` as the fuel allows. -/
def readn (answers : Nat → Transfer) (fuel : Nat) (mem : Memory) (buffer n : Nat)
    (input : List UInt8) : Option ReadnResult :=
  readnLoop answers n fuel 0 ⟨0, buffer, mem, input⟩

/-- The variables of `writen`, and the bytes that have been written to the file. -/
structure WritenState where
  totWritten : Nat
  /-- The address from which the next bytes are written. -/
  buf : Nat
  output : List UInt8

/-- The loop of `writen`, where so many calls of `write` have been made. -/
def writenLoop (answers : Nat → Transfer) (mem : Memory) (n : Nat) :
    Nat → Nat → WritenState → Option (Int × List UInt8)
  | 0, _, _ => none
  | fuel + 1, call, state =>
    if state.totWritten < n then
      match answers call with
      | .part more =>
        let numWritten := Transfer.amount more (n - state.totWritten)
        writenLoop answers mem n fuel (call + 1)
          { totWritten := state.totWritten + numWritten
            buf := state.buf + numWritten
            output := state.output ++ mem.load state.buf numWritten }
      -- Interrupted: restart `write`.
      | .interrupted => writenLoop answers mem n fuel (call + 1) state
      -- That nothing is written should never happen.
      | .nothing | .error => some (-1, state.output)
    else some (state.totWritten, state.output)

/-- `writen(fd, buffer, n)`, which makes at most so many calls of `write` as the fuel allows. -/
def writen (answers : Nat → Transfer) (fuel : Nat) (mem : Memory) (buffer n : Nat)
    (output : List UInt8) : Option (Int × List UInt8) :=
  writenLoop answers mem n fuel 0 ⟨0, buffer, output⟩

/-- A buffer that is passed to one of the functions, and what the calls do that it makes. -/
structure Request where
  mem : Memory
  buffer : Nat
  n : Nat
  schedule : Schedule

/-- The bytes in the buffer. -/
def Request.data (request : Request) : List UInt8 :=
  request.mem.load request.buffer request.n

/-- Successive calls of `writen`: what they return, and what has been written in the end. -/
def sendAll (fuel : Nat) : List Request → List UInt8 → Option (List Int × List UInt8)
  | [], output => some ([], output)
  | request :: rest, output =>
    (writen request.schedule.answers fuel request.mem request.buffer request.n output).bind
      fun first => (sendAll fuel rest first.2).map fun later => (first.1 :: later.1, later.2)

/-- Successive calls of `readn`: what each has stored of the bytes that it returns. -/
def receiveAll (fuel : Nat) : List Request → List UInt8 → Option (List (List UInt8))
  | [], _ => some []
  | request :: rest, input =>
    (readn request.schedule.answers fuel request.mem request.buffer request.n input).bind
      fun first => (receiveAll fuel rest first.input).map fun later =>
        first.mem.load request.buffer first.value.toNat :: later

end SysProg.Sockets
