import SysProg.Lib.Machine

/-! The shared-memory transfer programs: one writer and one reader taking turns on a segment. -/

namespace SysProg.Svshm

/-- The size of the transfer buffer, `BUF_SIZE`. -/
def bufSize : Nat := 1024

/-- The shared memory segment, `struct shmseg`. -/
structure Shmseg where
  /-- Number of bytes used in `buf`, or what a failed `read` returned. -/
  cnt : Int
  /-- Data being transferred. -/
  buf : List UInt8
  deriving DecidableEq, Repr

/-- What the kernel answers to the system call a process is making. -/
inductive Answer where
  /-- The call succeeds, or the instruction is not a call at all. -/
  | ok
  /-- `semop` is interrupted by a signal handler. -/
  | eintr
  /-- The call fails for another reason. -/
  | error
  /-- `read` or `write` moves this many bytes. -/
  | moved (count : Nat)
  deriving DecidableEq, Repr

/-- Where the writer's `main` stands once its initialisation is over. -/
inductive WriterPc where
  /-- `reserveSem(semid, WRITE_SEM)` at the head of the loop. -/
  | reserve
  /-- The call of `read` into `shmp->buf`. -/
  | read
  /-- The assignment of the result of `read` to `shmp->cnt`. -/
  | setCnt (result : Int)
  /-- The test `shmp->cnt == -1`. -/
  | checkRead
  /-- `releaseSem(semid, READ_SEM)`. -/
  | release
  /-- The test `shmp->cnt == 0`, made after the reader was given its turn. -/
  | testEof
  /-- The loop update `xfrs++, bytes += shmp->cnt`. -/
  | advance
  /-- The `reserveSem(semid, WRITE_SEM)` after the loop. -/
  | lastReserve
  /-- `semctl(semid, 0, IPC_RMID, dummy)`. -/
  | removeSems
  /-- `shmdt(shmp)`. -/
  | detach
  /-- `shmctl(shmid, IPC_RMID, NULL)`. -/
  | removeShm
  /-- `exit(EXIT_SUCCESS)`. -/
  | exited
  deriving DecidableEq, Repr

/-- Where the reader's `main` stands. -/
inductive ReaderPc where
  /-- `semget(SEM_KEY, 0, 0)`. -/
  | semget
  /-- `shmget(SHM_KEY, 0, 0)`. -/
  | shmget
  /-- `shmat(shmid, NULL, SHM_RDONLY)`. -/
  | shmat
  /-- `reserveSem(semid, READ_SEM)` at the head of the loop. -/
  | reserve
  /-- The test `shmp->cnt == 0`. -/
  | testCnt
  /-- `bytes += shmp->cnt`. -/
  | addBytes
  /-- `write(STDOUT_FILENO, shmp->buf, shmp->cnt)`. -/
  | write
  /-- `releaseSem(semid, WRITE_SEM)` at the end of the loop, and the update `xfrs++`. -/
  | release
  /-- `shmdt(shmp)` after the loop. -/
  | detach
  /-- `releaseSem(semid, WRITE_SEM)` after the loop. -/
  | lastRelease
  /-- `exit(EXIT_SUCCESS)`. -/
  | exited
  /-- `fatal("partial/failed write")`. -/
  | fatal
  deriving DecidableEq, Repr

/-- A process: its program counter and the two `int` counters both programs keep. -/
structure Process (Pc : Type) where
  pc : Pc
  /-- The process has terminated by `errExit` in the call it was making. -/
  aborted : Bool
  bytes : BitVec 32
  xfrs : BitVec 32
  deriving DecidableEq, Repr

/-- The two processes together with everything they share. -/
structure State where
  /-- Standard input of the writer that is still unread. -/
  input : List UInt8
  /-- Everything the reader has written to its standard output. -/
  output : List UInt8
  /-- Value of the semaphore `WRITE_SEM`. -/
  writeSem : Nat
  /-- Value of the semaphore `READ_SEM`. -/
  readSem : Nat
  /-- The semaphore set has not been removed. -/
  semsExist : Bool
  /-- The segment has not been removed. -/
  shmExists : Bool
  shm : Shmseg
  writer : Process WriterPc
  reader : Process ReaderPc
  deriving DecidableEq, Repr

/-- The writer has finished its initialisation and the reader is about to start. -/
def start (input : List UInt8) (shm : Shmseg) : State where
  input := input
  output := []
  writeSem := 1
  readSem := 0
  semsExist := true
  shmExists := true
  shm := shm
  writer := ⟨.reserve, false, 0, 0⟩
  reader := ⟨.semget, false, 0, 0⟩

/-- The writer goes on at another instruction. -/
def State.writerAt (state : State) (pc : WriterPc) : State :=
  { state with writer := { state.writer with pc := pc } }

/-- The reader goes on at another instruction. -/
def State.readerAt (state : State) (pc : ReaderPc) : State :=
  { state with reader := { state.reader with pc := pc } }

/-- `errExit` in the writer. -/
def State.writerAborts (state : State) : State :=
  { state with writer := { state.writer with aborted := true } }

/-- `errExit` in the reader. -/
def State.readerAborts (state : State) : State :=
  { state with reader := { state.reader with aborted := true } }

/-- `read(STDIN_FILENO, shmp->buf, BUF_SIZE)` stores some bytes, and none only at end of file. -/
def readInput (state : State) (count : Nat) : Option State :=
  if count ≤ bufSize ∧ count ≤ state.input.length ∧ (count = 0 ↔ state.input = []) then
    some { state with
      input := state.input.drop count
      shm := { state.shm with buf := state.input.take count ++ state.shm.buf.drop count } }
  else none

/-- One step of the writer, given the kernel's answer. -/
def writerStep (state : State) (answer : Answer) : Option State :=
  if state.writer.aborted then none
  else match state.writer.pc, answer with
  | .reserve, .ok =>
    if state.semsExist ∧ 0 < state.writeSem then
      some ({ state with writeSem := state.writeSem - 1 }.writerAt .read)
    else none
  -- An interrupted `semop` is restarted by the loop in `reserveSem`.
  | .reserve, .eintr | .lastReserve, .eintr => some state
  | .read, .moved count => (readInput state count).map (·.writerAt (.setCnt count))
  | .read, .error => some (state.writerAt (.setCnt (-1)))
  | .setCnt result, .ok =>
    some ({ state with shm := { state.shm with cnt := result } }.writerAt .checkRead)
  | .checkRead, .ok =>
    some (if state.shm.cnt = -1 then state.writerAborts else state.writerAt .release)
  | .release, .ok =>
    if state.semsExist then
      some ({ state with readSem := state.readSem + 1 }.writerAt .testEof)
    else none
  | .testEof, .ok =>
    some (state.writerAt (if state.shm.cnt = 0 then .lastReserve else .advance))
  | .advance, .ok =>
    some { state with
      writer := { state.writer with
        pc := .reserve
        bytes := state.writer.bytes + BitVec.ofInt 32 state.shm.cnt
        xfrs := state.writer.xfrs + 1 } }
  | .lastReserve, .ok =>
    if state.semsExist ∧ 0 < state.writeSem then
      some ({ state with writeSem := state.writeSem - 1 }.writerAt .removeSems)
    else none
  | .removeSems, .ok => some ({ state with semsExist := false }.writerAt .detach)
  | .detach, .ok => some (state.writerAt .removeShm)
  | .removeShm, .ok => some ({ state with shmExists := false }.writerAt .exited)
  | .reserve, .error | .release, .error | .lastReserve, .error | .removeSems, .error
  | .detach, .error | .removeShm, .error => some state.writerAborts
  | _, _ => none

/-- One step of the reader, given the kernel's answer. -/
def readerStep (state : State) (answer : Answer) : Option State :=
  if state.reader.aborted then none
  else match state.reader.pc, answer with
  | .semget, .ok => if state.semsExist then some (state.readerAt .shmget) else none
  | .shmget, .ok => if state.shmExists then some (state.readerAt .shmat) else none
  | .shmat, .ok => if state.shmExists then some (state.readerAt .reserve) else none
  | .reserve, .ok =>
    if state.semsExist ∧ 0 < state.readSem then
      some ({ state with readSem := state.readSem - 1 }.readerAt .testCnt)
    else none
  | .reserve, .eintr => some state
  | .testCnt, .ok =>
    some (state.readerAt (if state.shm.cnt = 0 then .detach else .addBytes))
  | .addBytes, .ok =>
    some { state with
      reader := { state.reader with
        pc := .write, bytes := state.reader.bytes + BitVec.ofInt 32 state.shm.cnt } }
  | .write, .moved count =>
    -- The bytes of a partial write have reached standard output before it is found fatal.
    if count ≤ (state.shm.buf.take state.shm.cnt.toNat).length then
      some ({ state with output := state.output ++ state.shm.buf.take count }.readerAt
        (if (count : Int) = state.shm.cnt then .release else .fatal))
    else none
  | .write, .error => some (state.readerAt .fatal)
  | .release, .ok =>
    if state.semsExist then
      some { state with
        writeSem := state.writeSem + 1
        reader := { state.reader with pc := .reserve, xfrs := state.reader.xfrs + 1 } }
    else none
  | .detach, .ok => some (state.readerAt .lastRelease)
  | .lastRelease, .ok =>
    if state.semsExist then
      some ({ state with writeSem := state.writeSem + 1 }.readerAt .exited)
    else none
  | .semget, .error | .shmget, .error | .shmat, .error | .reserve, .error | .release, .error
  | .detach, .error | .lastRelease, .error => some state.readerAborts
  | _, _ => none

/-- Which process moves, and what the kernel answers it. -/
inductive Action where
  | writer (answer : Answer)
  | reader (answer : Answer)
  deriving DecidableEq, Repr

/-- Both programs running side by side, one instruction or system call at a time. -/
def transfer : Machine State Action where
  step
    | state, .writer answer => writerStep state answer
    | state, .reader answer => readerStep state answer

/-- The writer holds its turn: `WRITE_SEM` is reserved and the reader has not been released. -/
def WriterPc.inTurn : WriterPc → Bool
  | .read | .setCnt _ | .checkRead | .release | .removeSems | .detach | .removeShm | .exited => true
  | _ => false

/-- The reader stands between `reserveSem(READ_SEM)` and `releaseSem(WRITE_SEM)`. -/
def ReaderPc.inTurn : ReaderPc → Bool
  | .testCnt | .addBytes | .write | .fatal | .release | .detach | .lastRelease => true
  | _ => false

end SysProg.Svshm
