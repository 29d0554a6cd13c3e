import SysProg.Svshm.Transfer

/-! The semaphore hand-off keeps the two processes apart and delivers the input unchanged. -/

namespace SysProg.Svshm

/-- Everything one step of the writer can do, with failing calls and restarts gathered together. -/
inductive WriterMove (state : State) (answer : Answer) : State → Prop
  | restarted (interrupted : answer = .eintr) : WriterMove state answer state
  | abort (running : state.writer.pc ≠ .exited) : WriterMove state answer state.writerAborts
  | reserve (here : state.writer.pc = .reserve) (free : 0 < state.writeSem) :
    WriterMove state answer ({ state with writeSem := state.writeSem - 1 }.writerAt .read)
  | read (here : state.writer.pc = .read) (count : Nat)
      (fits : count ≤ state.input.length) (atEnd : count = 0 ↔ state.input = []) :
    WriterMove state answer ({ state with
      input := state.input.drop count
      shm := { state.shm with
        buf := state.input.take count ++ state.shm.buf.drop count } }.writerAt (.setCnt count))
  | readFailed (here : state.writer.pc = .read) :
    WriterMove state answer (state.writerAt (.setCnt (-1)))
  | setCnt (result : Int) (here : state.writer.pc = .setCnt result) :
    WriterMove state answer
      ({ state with shm := { state.shm with cnt := result } }.writerAt .checkRead)
  | checkRead (here : state.writer.pc = .checkRead) (read : state.shm.cnt ≠ -1) :
    WriterMove state answer (state.writerAt .release)
  | release (here : state.writer.pc = .release) :
    WriterMove state answer ({ state with readSem := state.readSem + 1 }.writerAt .testEof)
  | sawEof (here : state.writer.pc = .testEof) (eof : state.shm.cnt = 0) :
    WriterMove state answer (state.writerAt .lastReserve)
  | sawData (here : state.writer.pc = .testEof) (data : state.shm.cnt ≠ 0) :
    WriterMove state answer (state.writerAt .advance)
  | advance (here : state.writer.pc = .advance) :
    WriterMove state answer { state with
      writer := { state.writer with
        pc := .reserve
        bytes := state.writer.bytes + BitVec.ofInt 32 state.shm.cnt
        xfrs := state.writer.xfrs + 1 } }
  | lastReserve (here : state.writer.pc = .lastReserve) (free : 0 < state.writeSem) :
    WriterMove state answer ({ state with writeSem := state.writeSem - 1 }.writerAt .removeSems)
  | removeSems (here : state.writer.pc = .removeSems) :
    WriterMove state answer ({ state with semsExist := false }.writerAt .detach)
  | detach (here : state.writer.pc = .detach) : WriterMove state answer (state.writerAt .removeShm)
  | removeShm (here : state.writer.pc = .removeShm) :
    WriterMove state answer ({ state with shmExists := false }.writerAt .exited)

/-- Every step of the writer is one of its moves. -/
theorem writerStep_move {state next : State} {answer : Answer}
    (stepped : writerStep state answer = some next) : WriterMove state answer next := by
  -- One case per instruction and answer, in the order of the program text.
  simp only [writerStep, Option.ite_none_left_eq_some] at stepped
  obtain ⟨_, stepped⟩ := stepped
  split at stepped <;> rename_i here <;>
    simp only [Option.ite_none_right_eq_some, Option.some.injEq, Option.map_eq_some_iff,
      readInput, reduceCtorEq] at stepped
  · obtain ⟨⟨_, free⟩, rfl⟩ := stepped
    exact .reserve here free
  · exact stepped ▸ .restarted rfl
  · exact stepped ▸ .restarted rfl
  · obtain ⟨_, ⟨⟨_, fits, atEnd⟩, rfl⟩, rfl⟩ := stepped
    exact .read here _ fits atEnd
  · exact stepped ▸ .readFailed here
  · exact stepped ▸ .setCnt _ here
  · subst stepped
    split
    · exact .abort (by simp [here])
    · rename_i read
      exact .checkRead here read
  · obtain ⟨_, rfl⟩ := stepped
    exact .release here
  · subst stepped
    split
    · rename_i eof
      exact .sawEof here eof
    · rename_i data
      exact .sawData here data
  · exact stepped ▸ .advance here
  · obtain ⟨⟨_, free⟩, rfl⟩ := stepped
    exact .lastReserve here free
  · exact stepped ▸ .removeSems here
  · exact stepped ▸ .detach here
  · exact stepped ▸ .removeShm here
  all_goals exact stepped ▸ .abort (by simp [here])

/-- How far the reader is from the end of its program, not counting blocks still to come. -/
def readerRank : ReaderPc → Nat
  | .exited | .fatal => 0
  | .reserve => 1
  | .shmat | .lastRelease => 2
  | .shmget | .release | .detach => 3
  | .semget | .write => 4
  | .addBytes => 5
  | .testCnt => 6

/-- Everything one step of the reader can do, with failing calls and restarts gathered together. -/
inductive ReaderMove (state : State) (answer : Answer) : State → Prop
  | restarted (interrupted : answer = .eintr) : ReaderMove state answer state
  | abort (running : readerRank state.reader.pc ≠ 0) : ReaderMove state answer state.readerAborts
  | semget (here : state.reader.pc = .semget) : ReaderMove state answer (state.readerAt .shmget)
  | shmget (here : state.reader.pc = .shmget) : ReaderMove state answer (state.readerAt .shmat)
  | shmat (here : state.reader.pc = .shmat) : ReaderMove state answer (state.readerAt .reserve)
  | reserve (here : state.reader.pc = .reserve) (full : 0 < state.readSem) :
    ReaderMove state answer ({ state with readSem := state.readSem - 1 }.readerAt .testCnt)
  | sawEof (here : state.reader.pc = .testCnt) (eof : state.shm.cnt = 0) :
    ReaderMove state answer (state.readerAt .detach)
  | sawData (here : state.reader.pc = .testCnt) (data : state.shm.cnt ≠ 0) :
    ReaderMove state answer (state.readerAt .addBytes)
  | addBytes (here : state.reader.pc = .addBytes) :
    ReaderMove state answer { state with
      reader := { state.reader with
        pc := .write, bytes := state.reader.bytes + BitVec.ofInt 32 state.shm.cnt } }
  | write (here : state.reader.pc = .write) (count : Nat) (whole : (count : Int) = state.shm.cnt) :
    ReaderMove state answer
      ({ state with output := state.output ++ state.shm.buf.take count }.readerAt .release)
  | writePart (here : state.reader.pc = .write) (count : Nat) (part : count ≤ state.shm.cnt.toNat) :
    ReaderMove state answer
      ({ state with output := state.output ++ state.shm.buf.take count }.readerAt .fatal)
  | release (here : state.reader.pc = .release) :
    ReaderMove state answer { state with
      writeSem := state.writeSem + 1
      reader := { state.reader with pc := .reserve, xfrs := state.reader.xfrs + 1 } }
  | detach (here : state.reader.pc = .detach) :
    ReaderMove state answer (state.readerAt .lastRelease)
  | lastRelease (here : state.reader.pc = .lastRelease) :
    ReaderMove state answer ({ state with writeSem := state.writeSem + 1 }.readerAt .exited)

/-- A failed `write` is a partial one that moved nothing. -/
theorem ReaderMove.writeFailed {state : State} {answer : Answer} (here : state.reader.pc = .write) :
    ReaderMove state answer (state.readerAt .fatal) := by
  simpa using ReaderMove.writePart here 0 (Nat.zero_le _)

/-- Every step of the reader is one of its moves. -/
theorem readerStep_move {state next : State} {answer : Answer}
    (stepped : readerStep state answer = some next) : ReaderMove state answer next := by
  -- One case per instruction and answer, in the order of the program text.
  simp only [readerStep, Option.ite_none_left_eq_some] at stepped
  obtain ⟨_, stepped⟩ := stepped
  split at stepped <;> rename_i here <;>
    simp only [Option.ite_none_right_eq_some, Option.some.injEq, reduceCtorEq] at stepped
  · obtain ⟨_, rfl⟩ := stepped
    exact .semget here
  · obtain ⟨_, rfl⟩ := stepped
    exact .shmget here
  · obtain ⟨_, rfl⟩ := stepped
    exact .shmat here
  · obtain ⟨⟨_, full⟩, rfl⟩ := stepped
    exact .reserve here full
  · exact stepped ▸ .restarted rfl
  · subst stepped
    split
    · rename_i eof
      exact .sawEof here eof
    · rename_i data
      exact .sawData here data
  · exact stepped ▸ .addBytes here
  · obtain ⟨part, rfl⟩ := stepped
    simp only [List.length_take] at part
    split
    · rename_i whole
      exact .write here _ whole
    · exact .writePart here _ (by omega)
  · exact stepped ▸ .writeFailed here
  · obtain ⟨_, rfl⟩ := stepped
    exact .release here
  · exact stepped ▸ .detach here
  · obtain ⟨_, rfl⟩ := stepped
    exact .lastRelease here
  all_goals exact stepped ▸ .abort (by simp [here, readerRank])

/-! ### Taking turns -/

/-- The parts of the reader's program, as the writer can tell them apart. -/
inductive ReaderPlace where
  | waiting | testing | working | leaving | gone
  deriving DecidableEq

/-- The part of its program the reader stands in. -/
def ReaderPc.place : ReaderPc → ReaderPlace
  | .semget | .shmget | .shmat | .reserve => .waiting
  | .testCnt => .testing
  | .addBytes | .write | .fatal | .release => .working
  | .detach | .lastRelease => .leaving
  | .exited => .gone

/-- The writer is filling the segment, and knows this much about its last `read`. -/
def WriterPc.Filling (cnt : Int) (input : List UInt8) : WriterPc → Prop
  | .read => True
  | .setCnt result => -1 ≤ result ∧ (result = 0 → input = [])
  | .checkRead => -1 ≤ cnt ∧ (cnt = 0 → input = [])
  | .release => 0 ≤ cnt ∧ (cnt = 0 → input = [])
  | _ => False

/-- The writer has handed over a block of this size, and stands where that block lets it be. -/
def WriterPc.HandedOver (cnt : Int) : WriterPc → Prop
  | .testEof => True
  | .advance | .reserve => cnt ≠ 0
  | .lastReserve => cnt = 0
  | _ => False

/-- The writer has been given its last turn. -/
def WriterPc.Closing : WriterPc → Prop
  | .removeSems | .detach | .removeShm | .exited => True
  | _ => False

/-- Where the single turn is and what each process knows, by the place of the reader. -/
def Phase (state : State) : Prop :=
  match state.reader.pc.place with
  | .waiting =>
    -- The turn is the writer's to take, or taken by it, or the reader's to take.
    (state.writeSem = 1 ∧ state.readSem = 0 ∧
      (state.writer.pc = .reserve ∨
        state.writer.pc.HandedOver state.shm.cnt ∧ 0 < state.shm.cnt)) ∨
    (state.writeSem = 0 ∧ state.readSem = 0 ∧
      state.writer.pc.Filling state.shm.cnt state.input) ∨
    (state.writeSem = 0 ∧ state.readSem = 1 ∧ state.writer.pc.HandedOver state.shm.cnt ∧
      0 ≤ state.shm.cnt ∧ (state.shm.cnt = 0 → state.input = []))
  | .testing =>
    state.writeSem = 0 ∧ state.readSem = 0 ∧ state.writer.pc.HandedOver state.shm.cnt ∧
      0 ≤ state.shm.cnt ∧ (state.shm.cnt = 0 → state.input = [])
  | .working =>
    state.writeSem = 0 ∧ state.readSem = 0 ∧ state.writer.pc.HandedOver state.shm.cnt ∧
      0 < state.shm.cnt
  | .leaving =>
    state.writeSem = 0 ∧ state.readSem = 0 ∧ state.writer.pc.HandedOver state.shm.cnt ∧
      state.shm.cnt = 0 ∧ state.input = []
  | .gone =>
    -- The reader's last release is the turn in which the writer cleans up.
    state.readSem = 0 ∧ state.shm.cnt = 0 ∧ state.input = [] ∧
      (state.writeSem = 1 ∧ state.writer.pc.HandedOver state.shm.cnt ∨
        state.writeSem = 0 ∧ state.writer.pc.Closing)

attribute [local simp] WriterPc.Filling WriterPc.HandedOver WriterPc.Closing ReaderPc.place
  State.writerAt State.readerAt

/-- The reader starts after the writer has initialised the semaphores for its own turn. -/
theorem phase_start (input : List UInt8) (shm : Shmseg) : Phase (start input shm) := by
  simp [Phase, start]

/-- Whatever the writer does, the single turn stays where it belongs. -/
theorem phase_writer {state next : State} {answer : Answer} (phase : Phase state)
    (moved : WriterMove state answer next) : Phase next := by
  cases moved with
  | restarted | abort => exact phase
  -- With the reader's place fixed, the writer's instruction decides which disjunct applies.
  | _ =>
    cases place : state.reader.pc.place <;> simp only [Phase, State.writerAt, *] at phase ⊢ <;>
      simp at phase ⊢ <;> grind

/-- Whatever the reader does, the single turn stays where it belongs. -/
theorem phase_reader {state next : State} {answer : Answer} (phase : Phase state)
    (moved : ReaderMove state answer next) : Phase next := by
  cases moved with
  | restarted | abort => exact phase
  -- The branch the reader takes on `cnt` agrees with the one the writer took or will take.
  | sawEof | sawData => cases at_ : state.writer.pc <;> simp_all [Phase] <;> grind
  | _ => simp_all [Phase] <;> grind

/-- The reader holds a block that it has not written out yet. -/
def ReaderPc.holdsBlock : ReaderPc → Bool
  | .testCnt | .addBytes | .write => true
  | _ => false

/-- The reader has taken its turn and not yet added the block to `bytes`. -/
def ReaderPc.owesBytes : ReaderPc → Bool
  | .testCnt | .addBytes => true
  | _ => false

/-- The reader has taken its turn and not yet added the block to `xfrs`. -/
def ReaderPc.owesXfrs : ReaderPc → Bool
  | .testCnt | .addBytes | .write | .fatal | .release => true
  | _ => false

/-- A writer that has handed over a block holds no turn and has nothing loaded. -/
theorem WriterPc.HandedOver.outside {cnt : Int} {pc : WriterPc} (handed : pc.HandedOver cnt) :
    pc.inTurn = false := by
  cases pc <;> simp_all [WriterPc.inTurn]

/-- A writer that cleans up holds its last turn. -/
theorem WriterPc.Closing.inTurn {pc : WriterPc} (closing : pc.Closing) : pc.inTurn := by
  cases pc <;> simp_all [WriterPc.inTurn]

/-- While the writer holds its turn, the reader waits for one or is gone. -/
theorem Phase.apart {state : State} (phase : Phase state) (turn : state.writer.pc.inTurn) :
    state.readSem = 0 ∧ (state.reader.pc.place = .waiting ∨ state.reader.pc.place = .gone) := by
  -- The writer is at work, so it has not handed the turn over.
  have handed : ∀ cnt, ¬ state.writer.pc.HandedOver cnt := fun cnt handed => by
    simp [handed.outside] at turn
  unfold Phase at phase
  split at phase <;> simp_all [-ReaderPc.place, -WriterPc.HandedOver]
  rcases phase with ⟨_, unsent, here⟩ | ⟨_, unsent, _⟩
  · exact unsent
  · exact unsent

/-- A reader that waits for its turn or is gone holds no block and owes nothing. -/
theorem ReaderPc.idle {pc : ReaderPc} (place : pc.place = .waiting ∨ pc.place = .gone) :
    pc.inTurn = false ∧ pc.holdsBlock = false ∧ pc.owesBytes = false ∧ pc.owesXfrs = false := by
  cases pc <;>
    simp_all [ReaderPc.inTurn, ReaderPc.holdsBlock, ReaderPc.owesBytes, ReaderPc.owesXfrs]

/-- At most one of the two processes holds a turn. -/
theorem Phase.oneTurn {state : State} (phase : Phase state) :
    ¬ (state.writer.pc.inTurn ∧ state.reader.pc.inTurn) := by
  rintro ⟨writing, reading⟩
  simp [(ReaderPc.idle (phase.apart writing).2).1] at reading

/-- The writer cleans up only after the reader is gone. -/
theorem Phase.closing {state : State} (phase : Phase state) (closing : state.writer.pc.Closing) :
    state.reader.pc.place = .gone := by
  obtain ⟨unsent, place | place⟩ := phase.apart closing.inTurn
  · cases here : state.writer.pc <;> simp_all [Phase, -ReaderPc.place]
  · exact place

/-- The semaphore the reader waits for is never released twice. -/
theorem Phase.readSem_le {state : State} (phase : Phase state) : state.readSem ≤ 1 := by
  unfold Phase at phase
  split at phase <;> omega

/-- While the reader holds its turn, the semaphore it waits for is taken. -/
theorem Phase.taken {state : State} (phase : Phase state) (turn : state.reader.pc.inTurn) :
    state.readSem = 0 := by
  -- The reader is at work, so it neither waits nor has gone.
  have busy : state.reader.pc.place ≠ .waiting ∧ state.reader.pc.place ≠ .gone := by
    constructor
    · intro place
      rw [(ReaderPc.idle (.inl place)).1] at turn
      contradiction
    · intro place
      rw [(ReaderPc.idle (.inr place)).1] at turn
      contradiction
  unfold Phase at phase
  split at phase <;> simp_all [-ReaderPc.place, -WriterPc.HandedOver]

/-- The part of the input that is in the segment for the reader. -/
def inFlight (readSem : Nat) (pc : ReaderPc) (shm : Shmseg) : List UInt8 :=
  if readSem = 1 ∨ pc.holdsBlock then shm.buf.take shm.cnt.toNat else []

/-- The part of the input that the writer has read and not handed over. -/
def loaded (pc : WriterPc) (shm : Shmseg) : List UInt8 :=
  match pc with
  | .setCnt result => shm.buf.take result.toNat
  | .checkRead | .release => shm.buf.take shm.cnt.toNat
  | _ => []

/-- Every byte of the input is written out, in flight, loaded or still unread, in that order. -/
structure Stream (input : List UInt8) (state : State) : Prop where
  whole : state.reader.pc ≠ .fatal →
    state.output ++ (inFlight state.readSem state.reader.pc state.shm ++
      (loaded state.writer.pc state.shm ++ state.input)) = input
  part : state.output <+: input

/-- Before the first hand-over, the whole input is unread. -/
theorem stream_start (input : List UInt8) (shm : Shmseg) : Stream input (start input shm) := by
  constructor <;> simp [start, inFlight, loaded, ReaderPc.holdsBlock]

/-- While the writer holds its turn, no block is in flight. -/
theorem Phase.quiet {state : State} (phase : Phase state) (turn : state.writer.pc.inTurn) :
    state.readSem = 0 ∧ state.reader.pc.holdsBlock = false :=
  ⟨(phase.apart turn).1, (ReaderPc.idle (phase.apart turn).2).2.1⟩

/-- The writer moves bytes along without losing or reordering any. -/
theorem stream_writer {input : List UInt8} {state next : State} {answer : Answer}
    (phase : Phase state)
    (stream : Stream input state) (moved : WriterMove state answer next) : Stream input next := by
  obtain ⟨whole, part⟩ := stream
  cases moved with
  | restarted | abort => exact ⟨whole, part⟩
  | read here count fits atEnd =>
    -- The bytes `read` stores are the first ones of the unread input.
    obtain ⟨unsent, noBlock⟩ := phase.quiet (by simp [here, WriterPc.inTurn])
    refine ⟨fun sound => ?_, part⟩
    simpa [inFlight, unsent, noBlock, loaded, here, List.take_append, fits] using whole sound
  | setCnt result here =>
    -- Nothing is in flight, so the new count describes the loaded block only.
    obtain ⟨unsent, noBlock⟩ := phase.quiet (by simp [here, WriterPc.inTurn])
    refine ⟨fun sound => ?_, part⟩
    simpa [inFlight, unsent, noBlock, loaded, here] using whole sound
  | release here =>
    -- The loaded block becomes the one in flight.
    obtain ⟨unsent, noBlock⟩ := phase.quiet (by simp [here, WriterPc.inTurn])
    refine ⟨fun sound => ?_, part⟩
    simpa [inFlight, unsent, noBlock, loaded, here] using whole sound
  | _ =>
    -- No other instruction of the writer moves a byte.
    refine ⟨fun sound => ?_, part⟩
    simpa [loaded, *] using whole sound

/-- The reader moves bytes along without losing or reordering any. -/
theorem stream_reader {input : List UInt8} {state next : State} {answer : Answer}
    (phase : Phase state)
    (stream : Stream input state) (moved : ReaderMove state answer next) : Stream input next := by
  obtain ⟨whole, part⟩ := stream
  cases moved with
  | restarted | abort => exact ⟨whole, part⟩
  | reserve here full =>
    -- The block in flight is now announced by the reader's place instead of the semaphore.
    have announced : state.readSem = 1 := Nat.le_antisymm phase.readSem_le full
    have before := whole (by simp [here])
    refine ⟨fun _ => ?_, part⟩
    simpa [inFlight, announced, ReaderPc.holdsBlock] using before
  | write here count whole_ =>
    -- The block leaves the segment for standard output.
    have taken := phase.taken (by simp [here, ReaderPc.inTurn])
    have before := whole (by simp [here])
    simp only [inFlight, here, ReaderPc.holdsBlock, ← whole_, Int.toNat_natCast, or_true,
      if_true] at before
    refine ⟨fun _ => ?_, ?_⟩
    · simpa [inFlight, taken, ReaderPc.holdsBlock] using before
    · exact ⟨_, by simpa using before⟩
  | writePart here count part_ =>
    -- The bytes that did reach standard output are the first ones of the block.
    have before := whole (by simp [here])
    simp only [inFlight, here, ReaderPc.holdsBlock, or_true, if_true] at before
    refine ⟨fun sound => absurd rfl sound, ?_⟩
    have first : state.shm.buf.take count <+: state.shm.buf.take state.shm.cnt.toNat :=
      List.take_prefix_take_left part_
    rw [← before]
    exact (List.prefix_append_right_inj _).mpr (first.trans (List.prefix_append _ _))
  | _ =>
    -- No other instruction of the reader moves a byte.
    have before := whole (by simp_all)
    refine ⟨fun _ => ?_, part⟩
    simpa [inFlight, ReaderPc.holdsBlock, *] using before

/-! ### Counting -/

/-- What the writer still has to add to a counter for the last block it handed over. -/
def writerOwes (pc : WriterPc) (amount : BitVec 32) : BitVec 32 :=
  match pc with
  | .testEof | .advance => amount
  | _ => 0

/-- What the reader still has to add to a counter for the last block handed over. -/
def readerOwes (readSem : Nat) (owes : Bool) (amount : BitVec 32) : BitVec 32 :=
  if readSem = 1 ∨ owes then amount else 0

/-- A block of data is one transfer, and the end-of-file block is none. -/
def xfrOf (cnt : Int) : BitVec 32 := if cnt = 0 then 0 else 1

/-- Both processes have counted the same, up to what they owe for the last block. -/
structure Counted (state : State) : Prop where
  bytes : state.writer.bytes + writerOwes state.writer.pc (BitVec.ofInt 32 state.shm.cnt) =
    state.reader.bytes +
      readerOwes state.readSem state.reader.pc.owesBytes (BitVec.ofInt 32 state.shm.cnt)
  xfrs : state.writer.xfrs + writerOwes state.writer.pc (xfrOf state.shm.cnt) =
    state.reader.xfrs + readerOwes state.readSem state.reader.pc.owesXfrs (xfrOf state.shm.cnt)

/-- Both processes start counting at zero. -/
theorem counted_start (input : List UInt8) (shm : Shmseg) : Counted (start input shm) := by
  constructor <;> simp [start, writerOwes, readerOwes, ReaderPc.owesBytes, ReaderPc.owesXfrs]

/-- While the writer holds its turn, the reader owes nothing. -/
theorem Phase.paid {state : State} (phase : Phase state) (turn : state.writer.pc.inTurn) :
    state.readSem = 0 ∧ state.reader.pc.owesBytes = false ∧ state.reader.pc.owesXfrs = false :=
  ⟨(phase.apart turn).1, (ReaderPc.idle (phase.apart turn).2).2.2⟩

/-- The writer reaches its loop update for blocks of data only. -/
theorem Phase.advance_data {state : State} (phase : Phase state)
    (here : state.writer.pc = .advance) : state.shm.cnt ≠ 0 := by
  cases place : state.reader.pc.place <;>
    simp [Phase, here, place, -ReaderPc.place] at phase <;> grind

/-- The writer counts each block once. -/
theorem counted_writer {state next : State} {answer : Answer} (phase : Phase state)
    (counted : Counted state)
    (moved : WriterMove state answer next) : Counted next := by
  obtain ⟨bytes, xfrs⟩ := counted
  cases moved with
  | restarted | abort => exact ⟨bytes, xfrs⟩
  | setCnt result here =>
    -- The old count is in nobody's debt any more, and the new one is not yet.
    have paid := phase.paid (by simp [here, WriterPc.inTurn])
    exact ⟨by simpa [readerOwes, paid, writerOwes, here] using bytes,
      by simpa [readerOwes, paid, writerOwes, here] using xfrs⟩
  | release here =>
    -- Both processes come to owe the same amount.
    have paid := phase.paid (by simp [here, WriterPc.inTurn])
    exact ⟨by simpa [readerOwes, paid, writerOwes, here] using bytes,
      by simpa [readerOwes, paid, writerOwes, here] using xfrs⟩
  | advance here =>
    -- `advance` is reached only for a block of data, which is one transfer.
    have data : xfrOf state.shm.cnt = 1 := by simp [xfrOf, phase.advance_data here]
    exact ⟨by simpa [writerOwes, here] using bytes, by simpa [writerOwes, here, data] using xfrs⟩
  | sawEof here eof =>
    have none_ : xfrOf state.shm.cnt = 0 := by simp [xfrOf, eof]
    exact ⟨by simpa [writerOwes, here, eof] using bytes,
      by simpa [writerOwes, here, none_] using xfrs⟩
  | _ => exact ⟨by simpa [writerOwes, *] using bytes, by simpa [writerOwes, *] using xfrs⟩

/-- The reader counts each block once. -/
theorem counted_reader {state next : State} {answer : Answer} (phase : Phase state)
    (counted : Counted state)
    (moved : ReaderMove state answer next) : Counted next := by
  obtain ⟨bytes, xfrs⟩ := counted
  cases moved with
  | restarted | abort => exact ⟨bytes, xfrs⟩
  | reserve here full =>
    have announced : state.readSem = 1 := Nat.le_antisymm phase.readSem_le full
    exact ⟨by simpa [readerOwes, announced, ReaderPc.owesBytes] using bytes,
      by simpa [readerOwes, announced, ReaderPc.owesXfrs] using xfrs⟩
  | sawEof here eof =>
    have none_ : xfrOf state.shm.cnt = 0 := by simp [xfrOf, eof]
    exact ⟨by simpa [readerOwes, ReaderPc.owesBytes, here, eof] using bytes,
      by simpa [readerOwes, ReaderPc.owesXfrs, here, none_] using xfrs⟩
  | addBytes here =>
    have unsent := phase.taken (by simp [here, ReaderPc.inTurn])
    exact ⟨by simpa [readerOwes, ReaderPc.owesBytes, here, unsent] using bytes,
      by simpa [readerOwes, ReaderPc.owesXfrs, here] using xfrs⟩
  | release here =>
    have data : xfrOf state.shm.cnt = 1 := by
      simp only [Phase, here, ReaderPc.place] at phase
      exact if_neg (by omega)
    have unsent := phase.taken (by simp [here, ReaderPc.inTurn])
    exact ⟨by simpa [readerOwes, ReaderPc.owesBytes, here] using bytes,
      by simpa [readerOwes, ReaderPc.owesXfrs, here, unsent, data] using xfrs⟩
  | semget here | shmget here | shmat here | sawData here | write here | writePart here
  | detach here | lastRelease here =>
    -- The reader's place changes, and not what it owes.
    exact ⟨by simpa [readerOwes, ReaderPc.owesBytes, here] using bytes,
      by simpa [readerOwes, ReaderPc.owesXfrs, here] using xfrs⟩

/-! ### Whole runs -/

/-- The shared objects are removed by the writer only, in its last turn. -/
structure Objects (state : State) : Prop where
  sems : state.semsExist = false → state.writer.pc = .detach ∨ state.writer.pc = .removeShm ∨
    state.writer.pc = .exited
  shm : state.shmExists = false → state.writer.pc = .exited

/-- Everything that holds in every state of a transfer. -/
structure Invariant (input : List UInt8) (state : State) : Prop where
  phase : Phase state
  stream : Stream input state
  counted : Counted state
  objects : Objects state

theorem objects_writer {state next : State} {answer : Answer} (objects : Objects state)
    (moved : WriterMove state answer next) : Objects next := by
  obtain ⟨sems, shm⟩ := objects
  -- Only its last step removes the objects.
  cases moved with
  | restarted | abort => exact ⟨sems, shm⟩
  | _ => constructor <;> simp_all

theorem objects_reader {state next : State} {answer : Answer} (objects : Objects state)
    (moved : ReaderMove state answer next) : Objects next := by
  obtain ⟨sems, shm⟩ := objects
  cases moved <;> exact ⟨sems, shm⟩

/-- The invariant holds when the reader starts. -/
theorem invariant_start (input : List UInt8) (shm : Shmseg) :
    Invariant input (start input shm) :=
  ⟨phase_start input shm, stream_start input shm, counted_start input shm,
    ⟨by simp [start], by simp [start]⟩⟩

/-- Every step of either process preserves the invariant. -/
theorem invariant_step {input : List UInt8} (state : State) (action : Action) (next : State)
    (invariant : Invariant input state) (stepped : transfer.step state action = some next) :
    Invariant input next := by
  obtain ⟨phase, stream, counted, objects⟩ := invariant
  -- One case for each process; each part of the invariant is kept by its own lemma.
  cases action with
  | writer answer =>
    have moved := writerStep_move stepped
    exact ⟨phase_writer phase moved, stream_writer phase stream moved,
      counted_writer phase counted moved, objects_writer objects moved⟩
  | reader answer =>
    have moved := readerStep_move stepped
    exact ⟨phase_reader phase moved, stream_reader phase stream moved,
      counted_reader phase counted moved, objects_reader objects moved⟩

/-- How far the writer is from the end of its program, not counting data still to be read. -/
def writerRank (cnt : Int) : WriterPc → Nat
  | .exited => 0
  | .removeShm => 1
  | .detach => 2
  | .removeSems => 3
  | .lastReserve => 4
  | .testEof => if cnt ≤ 0 then 5 else 18
  | .release => if cnt ≤ 0 then 12 else 25
  | .checkRead => if cnt ≤ 0 then 13 else 26
  | .setCnt result => if result ≤ 0 then 14 else 27
  | .read => 15
  | .reserve => 16
  | .advance => 17

/-- A bound on the instructions and calls that remain, leaving out interrupted ones. -/
def remaining (state : State) : Nat :=
  (bif state.writer.aborted then 0 else writerRank state.shm.cnt state.writer.pc) +
    13 * state.input.length + 6 * state.readSem +
    (bif state.reader.aborted then 0 else readerRank state.reader.pc)

/-- The answer lets the process get on, rather than having it repeat its call. -/
def Answer.advances : Answer → Bool
  | .eintr => false
  | _ => true

def Action.advances : Action → Bool
  | .writer answer | .reader answer => answer.advances

/-- A step of the writer uses up what remains, unless it only restarts a call. -/
theorem remaining_writer {state next : State} {answer : Answer} (phase : Phase state)
    (alive : state.writer.aborted = false) (moved : WriterMove state answer next) :
    remaining next + (if answer.advances then 1 else 0) ≤ remaining state := by
  have once : (if answer.advances then 1 else 0) ≤ 1 := by split <;> simp
  cases moved with
  | restarted interrupted => simp [interrupted, Answer.advances]
  | abort running =>
    have rank : 0 < writerRank state.shm.cnt state.writer.pc := by
      cases here : state.writer.pc <;> simp_all [writerRank] <;> split <;> omega
    simp [remaining, alive, State.writerAborts]
    omega
  | read here count fits atEnd =>
    -- A block of data pays for its whole round trip with its first byte.
    simp [remaining, alive, here, writerRank]
    split <;> omega
  | sawData here data =>
    have positive : ¬ state.shm.cnt ≤ 0 := by
      cases place : state.reader.pc.place <;> simp_all [Phase] <;> grind
    simp [remaining, alive, here, writerRank, positive]
    omega
  | _ =>
    simp [remaining, *, writerRank]
    (try split) <;> omega

/-- A step of the reader uses up what remains, unless it only restarts a call. -/
theorem remaining_reader {state next : State} {answer : Answer}
    (alive : state.reader.aborted = false) (moved : ReaderMove state answer next) :
    remaining next + (if answer.advances then 1 else 0) ≤ remaining state := by
  have once : (if answer.advances then 1 else 0) ≤ 1 := by split <;> simp
  -- A semaphore operation that was interrupted is made again and costs nothing.
  cases moved with
  | restarted interrupted => simp [interrupted, Answer.advances]
  | abort running =>
    simp [remaining, alive, State.readerAborts]
    omega
  | _ =>
    simp [remaining, *, readerRank]
    omega

/-- A run makes at most so many steps that are not mere restarts. -/
theorem transfer_bounded {input : List UInt8} {state next : State} (action : Action)
    (invariant : Invariant input state) (stepped : transfer.step state action = some next) :
    remaining next + (if action.advances then 1 else 0) ≤ remaining state := by
  -- A process that has aborted takes no step.
  cases action with
  | writer answer =>
    have alive : state.writer.aborted = false := by
      simp only [transfer, writerStep, Option.ite_none_left_eq_some, Bool.not_eq_true] at stepped
      exact stepped.1
    exact remaining_writer invariant.phase alive (writerStep_move stepped)
  | reader answer =>
    have alive : state.reader.aborted = false := by
      simp only [transfer, readerStep, Option.ite_none_left_eq_some, Bool.not_eq_true] at stepped
      exact stepped.1
    exact remaining_reader alive (readerStep_move stepped)

/-- Neither process has terminated with an error. -/
def State.sound (state : State) : Prop :=
  state.writer.aborted = false ∧ state.reader.aborted = false ∧ state.reader.pc ≠ .fatal

/-- Both processes have run to the end of their programs. -/
def State.ended (state : State) : Prop :=
  state.writer.pc = .exited ∧ state.reader.pc = .exited

/-- The writer can go on unless it waits for a turn that it does not have. -/
theorem writer_ready {state : State} (objects : Objects state)
    (alive : state.writer.aborted = false) (unfinished : state.writer.pc ≠ .exited)
    (turn : (state.writer.pc = .reserve ∨ state.writer.pc = .lastReserve) → 0 < state.writeSem) :
    ∃ answer, answer.advances ∧ answer ≠ .error ∧ (writerStep state answer).isSome := by
  cases here : state.writer.pc with
  | read =>
    -- The kernel delivers as much as fits, and nothing only at the end of the input.
    refine ⟨.moved (min bufSize state.input.length), rfl, by simp, ?_⟩
    have whole : min bufSize state.input.length = 0 ↔ state.input = [] := by
      simp [bufSize]
    simp [writerStep, alive, here, readInput, whole]
  | exited => exact absurd here unfinished
  | _ =>
    have kept := objects.sems
    refine ⟨.ok, rfl, by simp, ?_⟩
    simp_all [writerStep]

/-- The reader can go on unless it waits for a turn that it does not have. -/
theorem reader_ready {state : State} (phase : Phase state) (objects : Objects state)
    (alive : state.reader.aborted = false) (sound : state.reader.pc ≠ .fatal)
    (unfinished : state.reader.pc ≠ .exited)
    (turn : state.reader.pc = .reserve → 0 < state.readSem) :
    ∃ answer, answer.advances ∧ answer ≠ .error ∧ (readerStep state answer).isSome := by
  have kept := objects.sems
  have mapped := objects.shm
  -- The reader writes what is in the segment; all its other steps can be made as they stand.
  cases here : state.reader.pc with
  | write =>
    refine ⟨.moved (min state.shm.cnt.toNat state.shm.buf.length), rfl, by simp, ?_⟩
    simp [readerStep, alive, here]
  | exited => exact absurd here unfinished
  | fatal => exact absurd here sound
  | _ =>
    refine ⟨.ok, rfl, by simp, ?_⟩
    cases at_ : state.writer.pc <;> simp_all [readerStep, Phase]

/-- Two processes that are sound and not both at their end never wait for each other. -/
theorem transfer_ready {input : List UInt8} {state : State} (invariant : Invariant input state)
    (sound : state.sound) (unfinished : ¬ state.ended) :
    ∃ action : Action, action.advances ∧ action ≠ .writer .error ∧ action ≠ .reader .error ∧
      (transfer.step state action).isSome := by
  obtain ⟨phase, _, _, objects⟩ := invariant
  obtain ⟨writerAlive, readerAlive, whole⟩ := sound
  -- The turn is somewhere, and whoever may take it or holds it can go on.
  have turn : (0 < state.writeSem ∨ state.writer.pc.inTurn) ∧ state.writer.pc ≠ .exited ∨
      state.reader.pc ≠ .exited ∧ (state.reader.pc = .reserve → 0 < state.readSem) := by
    unfold State.ended at unfinished
    cases at_ : state.reader.pc <;> cases here : state.writer.pc <;>
      simp_all [Phase, WriterPc.inTurn] <;> omega
  rcases turn with ⟨turn, unfinished⟩ | ⟨unfinished, turn⟩
  · obtain ⟨answer, advances, success, ready⟩ := writer_ready objects writerAlive unfinished
      (by rintro (here | here) <;> simpa [here, WriterPc.inTurn] using turn)
    exact ⟨.writer answer, advances, by simpa using success, by simp, ready⟩
  · obtain ⟨answer, advances, success, ready⟩ :=
      reader_ready phase objects readerAlive whole unfinished turn
    exact ⟨.reader answer, advances, by simp, by simpa using success, ready⟩

/-- The writer changes the segment only while it holds its turn. -/
theorem writerStep_shm {state next : State} {answer : Answer}
    (stepped : writerStep state answer = some next) (out : ¬ state.writer.pc.inTurn) :
    next.shm = state.shm := by
  cases writerStep_move stepped <;> simp_all [State.writerAborts, WriterPc.inTurn]

/-- What the two programs guarantee in every state they get into. -/
structure Correct (input : List UInt8) (state : State) : Prop where
  /-- The writer does not touch the segment while the reader holds its turn. -/
  exclusive : state.reader.pc.inTurn → ∀ answer next,
    writerStep state answer = some next → next.shm = state.shm
  oneTurn : ¬ (state.writer.pc.inTurn ∧ state.reader.pc.inTurn)
  inOrder : state.output <+: input
  complete : state.reader.pc = .exited → state.output = input
  agree : state.ended →
    state.writer.bytes = state.reader.bytes ∧ state.writer.xfrs = state.reader.xfrs
  /-- Only when the reader is done with the shared objects are they removed. -/
  removal : state.semsExist = false ∨ state.shmExists = false → state.reader.pc = .exited
  /-- Unless a process has failed, the two go on until both have ended. -/
  progress : state.sound → ¬ state.ended →
    ∃ action : Action, action.advances ∧ action ≠ .writer .error ∧ action ≠ .reader .error ∧
      (transfer.step state action).isSome

/-- The invariant gives every guarantee. -/
theorem Invariant.correct {input : List UInt8} {state : State}
    (invariant : Invariant input state) : Correct input state where
  exclusive turn answer next stepped :=
    writerStep_shm stepped fun writing => invariant.phase.oneTurn ⟨writing, turn⟩
  oneTurn := invariant.phase.oneTurn
  inOrder := invariant.stream.part
  complete here := by
    -- With the reader gone, no byte is in flight, loaded or unread.
    have whole := invariant.stream.whole (by simp [here])
    have phase := invariant.phase
    have unloaded : loaded state.writer.pc state.shm = [] := by
      cases at_ : state.writer.pc <;> simp_all [Phase, loaded]
    have phase := invariant.phase
    simp only [Phase, here, ReaderPc.place] at phase
    simpa [inFlight, here, ReaderPc.holdsBlock, unloaded, phase] using whole
  agree ended := by
    -- Neither process owes anything for the last block.
    obtain ⟨bytes, xfrs⟩ := invariant.counted
    have phase := invariant.phase
    obtain ⟨writerEnded, readerEnded⟩ := ended
    simp only [Phase, readerEnded, ReaderPc.place] at phase
    simp [writerOwes, writerEnded, readerOwes, readerEnded, phase, ReaderPc.owesBytes,
      ReaderPc.owesXfrs] at bytes xfrs
    exact ⟨bytes, xfrs⟩
  removal gone := by
    obtain ⟨sems, shm⟩ := invariant.objects
    have phase := invariant.phase
    have closing : state.writer.pc.Closing := by
      rcases gone with gone | gone
      · rcases sems gone with here | here | here <;> simp [here]
      · simp [shm gone]
    have place := phase.closing closing
    cases here : state.reader.pc <;> simp_all
  progress := transfer_ready invariant

/-- Every run of the writer and the reader is correct, and makes boundedly many steps. -/
theorem transfer_correct (input : List UInt8) (shm : Shmseg) (actions : List Action)
    (state : State) (ran : transfer.run (start input shm) actions = some state) :
    Correct input state ∧ actions.countP Action.advances ≤ 13 * input.length + 20 := by
  have begun := invariant_start input shm
  refine ⟨(Machine.run_invariant invariant_step begun ran).correct, ?_⟩
  -- Each step that goes on lowers what remains.
  have bounded := Machine.run_progress_le invariant_step
    (fun _ action _ good stepped => transfer_bounded action good stepped) begun ran
  have size : remaining (start input shm) = 13 * input.length + 20 := by
    simp [remaining, start, writerRank, readerRank]
    omega
  omega

/-- One byte sent from end to end, with the reader's first `semop` interrupted once. -/
def oneByteRun : List Action :=
  [.writer .ok, .writer (.moved 1), .writer .ok, .writer .ok, .reader .ok, .reader .ok,
    .reader .ok, .reader .eintr, .writer .ok, .reader .ok, .writer .ok, .reader .ok, .reader .ok,
    .reader (.moved 1), .writer .ok, .reader .ok, .writer .ok, .writer (.moved 0), .writer .ok,
    .writer .ok, .writer .ok, .writer .ok, .reader .ok, .reader .ok, .reader .ok, .reader .ok,
    .writer .ok, .writer .ok, .writer .ok, .writer .ok]

theorem transfer_correct_oneByte : ∃ state,
    transfer.run (start [7] ⟨0, []⟩) oneByteRun = some state ∧ state.ended ∧
      state.output = [7] ∧ Correct [7] state :=
  ⟨_, rfl, ⟨rfl, rfl⟩, rfl, (transfer_correct [7] ⟨0, []⟩ oneByteRun _ rfl).1⟩

end SysProg.Svshm
