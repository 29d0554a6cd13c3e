import SysProg.Inotify.Events
import SysProg.Lib.Machine

/-! The reads of `processInotifyEvents`, and its accounts of the bytes in the buffer. -/

namespace SysProg.Inotify

/-- An `int` that has been incremented so many times. -/
def intCount (count : Nat) : Int :=
  (count : Int).bmod (2 ^ 32)

/-- A number of type `ssize_t` that is passed as a `size_t`. -/
def toSizeT (number : Int) : Nat :=
  (number % 2 ^ 64).toNat

/-- The bytes that a `read` stores. -/
def ReadResult.bytes : ReadResult → List UInt8
  | .events evs => encodeAll evs
  | _ => []

/-- Whether a `read` returns data. -/
def ReadResult.hasData : ReadResult → Bool
  | .events _ => true
  | _ => false

/-- What a `read` that asks for so many bytes can do: with data, it returns some, but not more. -/
def ReadResult.Answers (result : ReadResult) (count : Nat) : Prop :=
  result ≠ .events [] ∧ result.bytes.length ≤ count

instance (result : ReadResult) (count : Nat) : Decidable (result.Answers count) :=
  inferInstanceAs (Decidable (_ ∧ _))

/-- Where the program is with respect to `processInotifyEvents`. -/
inductive CallStage where
  | outside
  /-- The test `evp < buf + numRead`. -/
  | loopTest
  /-- An event hangs, and the secondary read is next. -/
  | secondaryRead
  | exited (exit : Exit)
  deriving DecidableEq

/-- A `read`, as it is asked for. -/
structure Request where
  /-- The offset of the target address in the buffer. -/
  target : Int
  count : Nat
  deriving DecidableEq

/-- The program with its buffer, beside which the accounts are kept as they should be. -/
structure CallState where
  stage : CallStage
  loop : LoopState
  /-- The bytes at the start of the buffer that come from the reads. -/
  valid : List UInt8
  /-- The number of reads that have returned data. -/
  dataReads : Nat
  /-- All reads that have been asked for. -/
  requests : List Request

/-- A `read` is asked for. -/
def CallState.asks (state : CallState) (target : Int) (count : Nat) : CallState :=
  { state with requests := state.requests ++ [⟨target, count⟩] }

/-- What happens next. -/
inductive CallAction where
  /-- The main loop and the commands, which do not touch the counter. -/
  | between (program : Program)
  /-- A call, with anything in its buffer, and the result of the primary read. -/
  | call (buf : Memory) (result : ReadResult)
  /-- An iteration of the loop, or its end. -/
  | iterate (world : World)
  /-- The result of the secondary read. -/
  | secondaryRead (result : ReadResult)

/-- The system that gives this answer to a `read`. -/
def answering (result : ReadResult) : World where
  read _ _ := result
  visits _ _ := []
  rmWatch _ _ := false
  checkExits _ := false

/-- The number of bytes that the primary read asks for. -/
def primaryCount (readBufferSize : Int) : Nat :=
  if readBufferSize > 0 then readBufferSize.toNat else inotifyReadBufLen

/-- `processInotifyEvents`, step by step. -/
def callStep (opts : Options) (readBufferSize : Int) (state : CallState) :
    CallAction → Option CallState
  | .between program =>
    if state.stage = .outside ∧ program.inotifyReadCnt = state.loop.program.inotifyReadCnt then
      some { state with loop := { state.loop with program := program } }
    else none
  | .call buf result =>
    let cnt := primaryCount readBufferSize
    if state.stage = .outside ∧ result.Answers cnt then
      let state := state.asks 0 cnt
      match result with
      | .events evs => some { state with
          stage := .loopTest
          loop :=
            { program := { state.loop.program with
                inotifyReadCnt := state.loop.program.inotifyReadCnt + 1 }
              buf := buf.store 0 (encodeAll evs)
              evp := 0
              numRead := (encodeAll evs).length
              firstTry := true }
          valid := encodeAll evs
          dataReads := state.dataReads + 1 }
      | _ => some { state with stage := .exited .failure }
    else none
  | .iterate world =>
    let loop := state.loop
    if state.stage = .loopTest then
      if loop.evp < loop.numRead then
        match processNextInotifyEvent opts world loop.program loop.buf loop.evp
          (loop.numRead - loop.evp) loop.firstTry with
        | .error exit => some { state with stage := .exited exit }
        | .ok outcome =>
          if 0 < outcome.evLen then
            some { state with loop := { loop with
              program := outcome.program
              evp := loop.evp + outcome.evLen.toNat
              firstTry := true } }
          else some { state with
            stage := .secondaryRead
            loop := { loop with program := outcome.program } }
      else some { state with stage := .outside }
    else none
  | .secondaryRead result =>
    let numRead := state.loop.numRead - state.loop.evp
    let count := toSizeT (inotifyReadBufLen - numRead)
    if state.stage = .secondaryRead ∧ result.Answers count then
      let state := state.asks numRead count
      match (Inotify.secondaryRead (answering result) state.loop).2 with
      | .ok loop => some { state with
          stage := .loopTest
          loop := loop
          valid := state.valid.drop state.loop.evp ++ result.bytes
          dataReads := state.dataReads + result.hasData.toNat }
      | .error exit => some { state with stage := .exited exit }
    else none

/-- The program from call to call, where this is the argument of the option `-b`. -/
def callMachine (opts : Options) (readBufferSize : Int) : Machine CallState CallAction where
  step := callStep opts readBufferSize

/-- The program before its first call. -/
def callStart (program : Program) (buf : Memory) : CallState where
  stage := .outside
  loop := ⟨{ program with inotifyReadCnt := 0 }, buf, 0, 0, true⟩
  valid := []
  dataReads := 0
  requests := []

end SysProg.Inotify
