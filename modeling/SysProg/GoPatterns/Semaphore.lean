import SysProg.Lib.Machine

/-! The channel semaphore that lets many goroutines read and a single one write. -/

namespace SysProg.GoPatterns.Semaphore

/-- Where the goroutine stands that calls `start` and, later on, `stop`. -/
inductive MainPc where
  /-- `rw.reportShutdown.Add(maxReaders)`. -/
  | addReaders
  /-- The loop that launches the readers, about to launch this one. -/
  | launch (reader : Nat)
  /-- `rw.reportShutdown.Add(1)`. -/
  | addWriter
  /-- `go rw.writer()`. -/
  | launchWriter
  /-- `start` has returned and `stop` has not closed the channel yet. -/
  | started
  /-- `rw.reportShutdown.Wait()`, after `close(rw.shutdown)`. -/
  | waitReport
  /-- `stop` has returned. -/
  | stopped
  deriving DecidableEq, Repr

/-- Where a reader goroutine stands. -/
inductive ReaderPc where
  | notLaunched
  /-- The `select` on `rw.shutdown` at the head of the loop. -/
  | select
  /-- The entry of `rw.write.Wait()` in `ReadLock`. -/
  | wait
  /-- Blocked inside `rw.write.Wait()`. -/
  | blocked
  /-- Released from `rw.write.Wait()` and not yet running again. -/
  | woken
  /-- `s <- e` in `rw.readerControl.Acquire(1)`. -/
  | acquire
  /-- `atomic.AddInt32(&rw.currentReads, 1)`. -/
  | enter
  /-- The reading work, up to `atomic.AddInt32(&rw.currentReads, -1)`. -/
  | reading
  /-- `<-s` in `rw.readerControl.Release(1)`. -/
  | release
  /-- The deferred `rw.reportShutdown.Done()`. -/
  | report
  | returned
  deriving DecidableEq, Repr

/-- Where the writer goroutine stands. -/
inductive WriterPc where
  | notLaunched
  /-- The `select` on `rw.shutdown` at the head of the loop. -/
  | select
  /-- The sleep before the next write. -/
  | sleep
  /-- `rw.write.Add(1)` in `WriteLock`. -/
  | addWrite
  /-- The loop of `rw.readerControl.Acquire(rw.maxReads)`, with this many buffers secured. -/
  | acquire (buffer : Nat)
  /-- The writing work. -/
  | writing
  /-- The loop of `rw.readerControl.Release(rw.maxReads)`, with this many buffers returned. -/
  | release (buffer : Nat)
  /-- `rw.write.Done()` in `WriteUnlock`. -/
  | doneWrite
  /-- The deferred `rw.reportShutdown.Done()`. -/
  | report
  | returned
  deriving DecidableEq, Repr

/-- A `readerWriter` with its goroutines. -/
structure State (maxReaders : Nat) where
  main : MainPc
  readers : Fin maxReaders → ReaderPc
  writer : WriterPc
  /-- The counter of the `write` wait group. -/
  write : Nat
  /-- The number of elements in the channel `readerControl`, of capacity `maxReads`. -/
  readerControl : Nat
  currentReads : BitVec 32
  /-- The channel `shutdown` is closed. -/
  shutdown : Bool
  /-- The counter of the `reportShutdown` wait group. -/
  reportShutdown : Nat

/-- The value `start` has just made. -/
def initial (maxReaders : Nat) : State maxReaders where
  main := .addReaders
  readers := fun _ => .notLaunched
  writer := .notLaunched
  write := 0
  readerControl := 0
  currentReads := 0
  shutdown := false
  reportShutdown := 0

variable {maxReaders : Nat}

/-- A reader goes on at another instruction. -/
def State.readerAt (state : State maxReaders) (reader : Fin maxReaders) (pc : ReaderPc) :
    State maxReaders :=
  { state with readers := Function.update state.readers reader pc }

/-- `rw.write.Done()` releases the readers blocked in `rw.write.Wait()` when it reaches zero. -/
def wake (write : Nat) (pc : ReaderPc) : ReaderPc :=
  if write = 0 ∧ pc = .blocked then .woken else pc

/-- One step of the goroutine that starts and stops the readers and the writer. -/
def mainStep (state : State maxReaders) : Option (State maxReaders) :=
  match state.main with
  | .addReaders =>
    some { state with main := .launch 0, reportShutdown := state.reportShutdown + maxReaders }
  | .launch reader =>
    if launched : reader < maxReaders then
      some { state.readerAt ⟨reader, launched⟩ .select with main := .launch (reader + 1) }
    else some { state with main := .addWriter }
  | .addWriter =>
    some { state with main := .launchWriter, reportShutdown := state.reportShutdown + 1 }
  | .launchWriter => some { state with main := .started, writer := .select }
  | .started => some { state with main := .waitReport, shutdown := true }
  | .waitReport =>
    if state.reportShutdown = 0 then some { state with main := .stopped } else none
  | .stopped => none

/-- One step of a reader. -/
def readerStep (maxReads : Nat) (state : State maxReaders) (reader : Fin maxReaders) :
    Option (State maxReaders) :=
  match state.readers reader with
  -- Of the two cases of the `select`, the default is taken only while `shutdown` is open.
  | .select => some (state.readerAt reader (if state.shutdown then .report else .wait))
  | .wait => some (state.readerAt reader (if state.write = 0 then .acquire else .blocked))
  | .woken => some (state.readerAt reader .acquire)
  | .acquire =>
    if state.readerControl < maxReads then
      some { state.readerAt reader .enter with readerControl := state.readerControl + 1 }
    else none
  | .enter =>
    some { state.readerAt reader .reading with currentReads := state.currentReads + 1 }
  | .reading =>
    some { state.readerAt reader .release with currentReads := state.currentReads - 1 }
  | .release =>
    if 0 < state.readerControl then
      some { state.readerAt reader .select with readerControl := state.readerControl - 1 }
    else none
  | .report =>
    some { state.readerAt reader .returned with reportShutdown := state.reportShutdown - 1 }
  | .notLaunched | .blocked | .returned => none

/-- One step of the writer. -/
def writerStep (maxReads : Nat) (state : State maxReaders) : Option (State maxReaders) :=
  match state.writer with
  | .select => some { state with writer := if state.shutdown then .report else .sleep }
  | .sleep => some { state with writer := .addWrite }
  | .addWrite => some { state with writer := .acquire 0, write := state.write + 1 }
  | .acquire buffer =>
    if buffer < maxReads then
      if state.readerControl < maxReads then
        some { state with
          writer := .acquire (buffer + 1), readerControl := state.readerControl + 1 }
      else none
    else some { state with writer := .writing }
  | .writing => some { state with writer := .release 0 }
  | .release buffer =>
    if buffer < maxReads then
      if 0 < state.readerControl then
        some { state with
          writer := .release (buffer + 1), readerControl := state.readerControl - 1 }
      else none
    else some { state with writer := .doneWrite }
  | .doneWrite =>
    some { state with
      writer := .select
      write := state.write - 1
      readers := fun reader => wake (state.write - 1) (state.readers reader) }
  | .report =>
    some { state with writer := .returned, reportShutdown := state.reportShutdown - 1 }
  | .notLaunched | .returned => none

/-- Which goroutine makes the next step. -/
inductive Actor (maxReaders : Nat) where
  | main
  | reader (reader : Fin maxReaders)
  | writer
  deriving DecidableEq, Repr

/-- All goroutines of one `readerWriter`, one step at a time. -/
def readerWriter (maxReads maxReaders : Nat) : Machine (State maxReaders) (Actor maxReaders) where
  step
    | state, .main => mainStep state
    | state, .reader reader => readerStep maxReads state reader
    | state, .writer => writerStep maxReads state

end SysProg.GoPatterns.Semaphore
