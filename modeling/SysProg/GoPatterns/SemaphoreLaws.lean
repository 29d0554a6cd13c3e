import SysProg.GoPatterns.Semaphore
import SysProg.Lib.Tally

/-! Readers and the writer exclude each other, nobody gets stuck, and shutdown lets everyone go. -/

namespace SysProg.GoPatterns.Semaphore

variable {maxReads maxReaders : Nat}

/-- The elements of `readerControl` that belong to a reader at this place. -/
def ReaderPc.tokens : ReaderPc → Nat
  | .enter | .reading | .release => 1
  | _ => 0

/-- The contribution of a reader at this place to `currentReads`. -/
def ReaderPc.reads : ReaderPc → Nat
  | .reading => 1
  | _ => 0

/-- What a reader at this place still has to report to `reportShutdown`. -/
def ReaderPc.reports : ReaderPc → Nat
  | .returned => 0
  | _ => 1

/-- A reader at this place has left its loop. -/
def ReaderPc.leaving : ReaderPc → Bool
  | .report | .returned => true
  | _ => false

/-- The elements of `readerControl` that the writer has acquired and not released. -/
def WriterPc.tokens (maxReads : Nat) : WriterPc → Nat
  | .acquire buffer => buffer
  | .writing => maxReads
  | .release buffer => maxReads - buffer
  | _ => 0

/-- The writer stands between `write.Add(1)` and `write.Done()`. -/
def WriterPc.locks : WriterPc → Nat
  | .acquire _ | .writing | .release _ | .doneWrite => 1
  | _ => 0

/-- What the writer still has to report to `reportShutdown`. -/
def WriterPc.reports : WriterPc → Nat
  | .returned => 0
  | _ => 1

/-- The writer has left its loop. -/
def WriterPc.leaving : WriterPc → Bool
  | .report | .returned => true
  | _ => false

/-- The loops over the buffers stop at `maxReads`. -/
def WriterPc.InBounds (maxReads : Nat) : WriterPc → Prop
  | .acquire buffer | .release buffer => buffer ≤ maxReads
  | _ => True

/-- `start` has added the readers to `reportShutdown`. -/
def MainPc.readersAdded : MainPc → Bool
  | .addReaders => false
  | _ => true

/-- `start` has added the writer to `reportShutdown`. -/
def MainPc.writerAdded : MainPc → Bool
  | .launchWriter | .started | .waitReport | .stopped => true
  | _ => false

/-- `start` has launched the writer. -/
def MainPc.writerLaunched : MainPc → Bool
  | .started | .waitReport | .stopped => true
  | _ => false

/-- `start` has not launched this reader yet. -/
def MainPc.before (reader : Nat) : MainPc → Prop
  | .addReaders => True
  | .launch next => next ≤ reader
  | _ => False

/-- `stop` has closed the channel `shutdown`. -/
def MainPc.closed : MainPc → Bool
  | .waitReport | .stopped => true
  | _ => false

/-- What holds in every state that a `readerWriter` gets into. -/
structure Invariant (maxReads : Nat) (state : State maxReaders) : Prop where
  /-- Every element of the channel belongs to a reader or to the writer. -/
  tokens : state.readerControl =
    tally ReaderPc.tokens state.readers + state.writer.tokens maxReads
  capacity : state.readerControl ≤ maxReads
  bounds : state.writer.InBounds maxReads
  write : state.write = state.writer.locks
  /-- Nobody stays in `write.Wait()` once the counter is zero. -/
  blocked : ∀ reader, state.readers reader = .blocked → 0 < state.write
  reads : state.currentReads = BitVec.ofNat 32 (tally ReaderPc.reads state.readers)
  reports : state.reportShutdown =
    (bif state.main.readersAdded then tally ReaderPc.reports state.readers else 0) +
      (bif state.main.writerAdded then state.writer.reports else 0)
  readers : ∀ reader, state.readers reader = .notLaunched ↔ state.main.before reader
  writer : state.writer = .notLaunched ↔ state.main.writerLaunched = false
  shutdown : state.shutdown = state.main.closed
  stopped : state.main = .stopped → state.reportShutdown = 0
  /-- Nobody leaves its loop before the channel is closed. -/
  readersLeave : ∀ reader, (state.readers reader).leaving = true → state.shutdown = true
  writerLeaves : state.writer.leaving = true → state.shutdown = true

/-- The value `start` makes satisfies the invariant. -/
theorem invariant_initial : Invariant maxReads (initial maxReaders) := by
  constructor <;> simp [initial, tally, ReaderPc.tokens, WriterPc.tokens, WriterPc.InBounds,
    WriterPc.locks, ReaderPc.reads, MainPc.readersAdded, MainPc.writerAdded, MainPc.before,
    MainPc.writerLaunched, MainPc.closed, ReaderPc.leaving, WriterPc.leaving]

/-- How many steps a reader at this place is from its return, once `shutdown` is closed. -/
def ReaderPc.rank : ReaderPc → Nat
  | .wait => 9
  | .blocked => 8
  | .woken => 7
  | .acquire => 6
  | .enter => 5
  | .reading => 4
  | .release => 3
  | .select | .notLaunched => 2
  | .report => 1
  | .returned => 0

/-- What every step of a reader does: it moves, and takes its token, read and report along. -/
structure ReaderMove (maxReads : Nat) (state : State maxReaders) (reader : Fin maxReaders)
    (next : State maxReaders) : Prop where
  moved : next = { state.readerAt reader (next.readers reader) with
    readerControl := next.readerControl
    currentReads := next.currentReads
    reportShutdown := next.reportShutdown }
  launched : state.readers reader ≠ .notLaunched
  stays : next.readers reader ≠ .notLaunched
  waits : next.readers reader = .blocked → 0 < state.write
  tokens : next.readerControl + (state.readers reader).tokens =
    state.readerControl + (next.readers reader).tokens
  capacity : state.readerControl ≤ maxReads → next.readerControl ≤ maxReads
  reads : next.currentReads + BitVec.ofNat 32 (state.readers reader).reads =
    state.currentReads + BitVec.ofNat 32 (next.readers reader).reads
  reports : next.reportShutdown + (state.readers reader).reports =
    state.reportShutdown + (next.readers reader).reports ∨ state.reportShutdown = 0
  running : (state.readers reader).reports = 1
  leaves : (next.readers reader).leaving = true →
    state.shutdown = true ∨ (state.readers reader).leaving = true
  closer : (state.readers reader = .select ∧ state.shutdown = false) ∨
    (next.readers reader).rank < (state.readers reader).rank

/-- Every step of a reader is such a move. -/
theorem readerStep_move {state next : State maxReaders} {reader : Fin maxReaders}
    (stepped : readerStep maxReads state reader = some next) :
    ReaderMove maxReads state reader next := by
  -- One case per instruction; the moves of `select` and `wait` depend on the shared fields.
  unfold readerStep at stepped
  split at stepped <;> rename_i here <;>
    simp only [reduceCtorEq, Option.some.injEq, Option.ite_none_right_eq_some] at stepped
  case h_1 =>
    subst stepped
    cases closed : state.shutdown <;> constructor <;> simp [here, closed, State.readerAt,
      ReaderPc.tokens, ReaderPc.reads, ReaderPc.reports, ReaderPc.rank, ReaderPc.leaving]
  case h_2 =>
    subst stepped
    by_cases idle : state.write = 0 <;> constructor <;> simp [here, idle, State.readerAt,
      ReaderPc.tokens, ReaderPc.reads, ReaderPc.reports, ReaderPc.rank, ReaderPc.leaving]
    exact Nat.pos_of_ne_zero idle
  case h_4 | h_7 =>
    obtain ⟨_, rfl⟩ := stepped
    constructor <;> simp [here, State.readerAt, ReaderPc.tokens, ReaderPc.reads, ReaderPc.reports,
      ReaderPc.rank, ReaderPc.leaving]
    all_goals omega
  all_goals
    subst stepped
    constructor <;> simp [here, State.readerAt, ReaderPc.tokens, ReaderPc.reads, ReaderPc.reports,
      ReaderPc.rank, ReaderPc.leaving]
  -- What is left is that leaving the reading work takes the read along, and a report is counted.
  all_goals first | exact BitVec.sub_add_cancel _ _ | omega

/-- A reader that moves is weighed at its new place. -/
theorem State.tally_readerAt (state : State maxReaders) (reader : Fin maxReaders) (pc : ReaderPc)
    (weight : ReaderPc → Nat) :
    tally weight (state.readerAt reader pc).readers + weight (state.readers reader) =
      tally weight state.readers + weight pc :=
  tally_update weight state.readers reader pc

/-- Every step of a reader preserves the invariant. -/
theorem Invariant.readerStep {state next : State maxReaders} {reader : Fin maxReaders}
    (invariant : Invariant maxReads state)
    (stepped : readerStep maxReads state reader = some next) : Invariant maxReads next := by
  -- The sums change by what the one reader carries; the other fields look at one reader at a time.
  have move := readerStep_move stepped
  have started : ¬ state.main.before reader := fun early =>
    move.launched ((invariant.readers reader).mpr early)
  have added : state.main.readersAdded = true := by
    cases atMain : state.main <;> simp [MainPc.before, MainPc.readersAdded, atMain] at started ⊢
  have due : 0 < state.reportShutdown := by
    have mine := le_tally ReaderPc.reports state.readers reader
    have all := invariant.reports
    simp only [added, cond_true, move.running] at all mine
    omega
  rw [move.moved]
  refine ⟨?_, move.capacity invariant.capacity, invariant.bounds, invariant.write, ?_, ?_, ?_, ?_,
    invariant.writer, invariant.shutdown, fun atStopped => ?_, ?_, invariant.writerLeaves⟩
  · have moved := state.tally_readerAt reader (next.readers reader) ReaderPc.tokens
    have before := invariant.tokens
    have carried := move.tokens
    simp only [State.readerAt] at moved ⊢
    omega
  · intro other blocked
    by_cases same : other = reader
    · simp only [State.readerAt, same, Function.update_self] at blocked
      exact move.waits blocked
    · simp only [State.readerAt, Function.update_of_ne same] at blocked
      exact invariant.blocked other blocked
  · have moved := congrArg (BitVec.ofNat 32)
      (state.tally_readerAt reader (next.readers reader) ReaderPc.reads)
    rw [BitVec.ofNat_add, BitVec.ofNat_add, ← invariant.reads, ← move.reads,
      BitVec.add_left_inj] at moved
    exact moved.symm
  · have moved := state.tally_readerAt reader (next.readers reader) ReaderPc.reports
    have before := invariant.reports
    have carried := move.reports
    simp only [State.readerAt, added, cond_true] at moved before ⊢
    omega
  · intro other
    by_cases same : other = reader
    · simp [State.readerAt, same, move.stays, started]
    · simpa [State.readerAt, Function.update_of_ne same] using invariant.readers other
  · have none_ := invariant.stopped atStopped
    omega
  · intro other leaving
    by_cases same : other = reader
    · simp only [State.readerAt, same, Function.update_self] at leaving
      exact (move.leaves leaving).elim id (invariant.readersLeave reader)
    · simp only [State.readerAt, Function.update_of_ne same] at leaving
      exact invariant.readersLeave other leaving

/-- How many steps the writer is from its return at this place, once `shutdown` is closed. -/
def WriterPc.rank (maxReads : Nat) : WriterPc → Nat
  | .sleep => 2 * maxReads + 8
  | .addWrite => 2 * maxReads + 7
  | .acquire buffer => maxReads + 6 + (maxReads - buffer)
  | .writing => maxReads + 5
  | .release buffer => 4 + (maxReads - buffer)
  | .doneWrite => 3
  | .select | .notLaunched => 2
  | .report => 1
  | .returned => 0

/-- What every step of the writer does: it moves, and takes its tokens and counts along. -/
structure WriterMove (maxReads : Nat) (state next : State maxReaders) : Prop where
  moved : next = { state with
    writer := next.writer
    write := next.write
    readerControl := next.readerControl
    reportShutdown := next.reportShutdown
    readers := next.readers }
  launched : state.writer ≠ .notLaunched
  stays : next.writer ≠ .notLaunched
  bounds : state.writer.InBounds maxReads → next.writer.InBounds maxReads
  write : state.write = state.writer.locks → next.write = next.writer.locks
  tokens : state.writer.InBounds maxReads → next.readerControl + state.writer.tokens maxReads =
    state.readerControl + next.writer.tokens maxReads
  capacity : state.readerControl ≤ maxReads → next.readerControl ≤ maxReads
  reports : next.reportShutdown + state.writer.reports =
    state.reportShutdown + next.writer.reports ∨ state.reportShutdown = 0
  running : state.writer.reports = 1
  leaves : next.writer.leaving = true → state.shutdown = true ∨ state.writer.leaving = true
  /-- The readers stay where they are, but those let through by `write.Done()`. -/
  woken : next.readers = state.readers ∧ state.write ≤ next.write ∨
    next.readers = fun reader => wake next.write (state.readers reader)
  closer : (state.writer = .select ∧ state.shutdown = false) ∨
    next.writer.rank maxReads < state.writer.rank maxReads

/-- Every step of the writer is such a move. -/
theorem writerStep_move {state next : State maxReaders}
    (stepped : writerStep maxReads state = some next) : WriterMove maxReads state next := by
  -- One case per instruction; the loops go round or leave, and `select` depends on `shutdown`.
  unfold writerStep at stepped
  split at stepped <;> rename_i here
  case h_1 =>
    obtain rfl := Option.some.inj stepped
    cases closed : state.shutdown <;> constructor <;> simp [here, closed, WriterPc.InBounds,
      WriterPc.locks, WriterPc.tokens, WriterPc.reports, WriterPc.rank, WriterPc.leaving]
  case h_4 buffer | h_6 buffer =>
    split at stepped
    · simp only [Option.ite_none_right_eq_some, Option.some.injEq] at stepped
      obtain ⟨_, rfl⟩ := stepped
      constructor <;> simp [here, WriterPc.InBounds, WriterPc.locks, WriterPc.tokens,
        WriterPc.reports, WriterPc.rank, WriterPc.leaving]
      all_goals omega
    · obtain rfl := Option.some.inj stepped
      constructor <;> simp [here, WriterPc.InBounds, WriterPc.locks, WriterPc.tokens,
        WriterPc.reports, WriterPc.rank, WriterPc.leaving]
      all_goals omega
  case h_9 | h_10 => cases stepped
  all_goals
    obtain rfl := Option.some.inj stepped
    constructor <;> simp [here, WriterPc.InBounds, WriterPc.locks, WriterPc.tokens,
      WriterPc.reports, WriterPc.rank, WriterPc.leaving]
  all_goals omega

/-- Letting readers through changes no weight that being blocked and being woken share. -/
theorem tally_wake {weight : ReaderPc → Nat} (same : weight .woken = weight .blocked)
    (write : Nat) (readers : Fin maxReaders → ReaderPc) :
    tally weight (fun reader => wake write (readers reader)) = tally weight readers := by
  refine Finset.sum_congr rfl fun reader _ => ?_
  -- A reader that is woken weighs as much as one that is blocked.
  by_cases woken : write = 0 ∧ readers reader = .blocked
  · simp [wake, woken.1, woken.2, same]
  · simp [wake, woken]

/-- Being let through launches nobody and takes nobody back. -/
theorem wake_eq_notLaunched {write : Nat} {pc : ReaderPc} :
    wake write pc = .notLaunched ↔ pc = .notLaunched := by
  by_cases woken : write = 0 ∧ pc = .blocked
  · simp [wake, woken.1, woken.2]
  · simp [wake, woken]

/-- Nobody is left blocked when the counter is zero. -/
theorem pos_of_wake_eq_blocked {write : Nat} {pc : ReaderPc} (blocked : wake write pc = .blocked) :
    0 < write := by
  by_contra zero
  obtain rfl : write = 0 := by omega
  by_cases here : pc = .blocked <;> simp [wake, here] at blocked

/-- Being let through is not leaving. -/
theorem leaving_wake (write : Nat) (pc : ReaderPc) : (wake write pc).leaving = pc.leaving := by
  by_cases woken : write = 0 ∧ pc = .blocked
  · simp [wake, woken.1, woken.2, ReaderPc.leaving]
  · simp [wake, woken]

/-- Every step of the writer preserves the invariant. -/
theorem Invariant.writerStep {state next : State maxReaders}
    (invariant : Invariant maxReads state)
    (stepped : writerStep maxReads state = some next) : Invariant maxReads next := by
  -- The readers count as before, whether or not some of them are let through.
  have move := writerStep_move stepped
  have launched : state.main.writerLaunched = true := by
    simpa using mt invariant.writer.mpr move.launched
  have readersAdded : state.main.readersAdded = true := by
    cases atMain : state.main <;>
      simp [MainPc.writerLaunched, MainPc.readersAdded, atMain] at launched ⊢
  have writerAdded : state.main.writerAdded = true := by
    cases atMain : state.main <;>
      simp [MainPc.writerLaunched, MainPc.writerAdded, atMain] at launched ⊢
  have due := invariant.reports
  simp only [readersAdded, writerAdded, cond_true] at due
  have running := move.running
  have same : ∀ weight : ReaderPc → Nat, weight .woken = weight .blocked →
      tally weight next.readers = tally weight state.readers := by
    intro weight alike
    rcases move.woken with ⟨stay, _⟩ | woken
    · rw [stay]
    · rw [woken, tally_wake alike]
  have readers : ∀ reader, next.readers reader = .notLaunched ↔
      state.readers reader = .notLaunched := by
    rcases move.woken with ⟨stay, _⟩ | woken
    · simp [stay]
    · simp [woken, wake_eq_notLaunched]
  have blocked : ∀ reader, next.readers reader = .blocked → 0 < next.write := by
    intro reader blocked
    rcases move.woken with ⟨stay, grows⟩ | woken
    · exact lt_of_lt_of_le (invariant.blocked reader (stay ▸ blocked)) grows
    · rw [woken] at blocked
      exact pos_of_wake_eq_blocked blocked
  have leave : ∀ reader, (next.readers reader).leaving = (state.readers reader).leaving := by
    rcases move.woken with ⟨stay, _⟩ | woken
    · simp [stay]
    · simp [woken, leaving_wake]
  rw [move.moved]
  refine ⟨?_, move.capacity invariant.capacity, move.bounds invariant.bounds,
    move.write invariant.write, blocked, ?_, ?_, ?_, ?_, invariant.shutdown, fun atStopped => ?_,
    fun reader leaving => invariant.readersLeave reader (leave reader ▸ leaving),
    fun leaving => (move.leaves leaving).elim id invariant.writerLeaves⟩
  · have carried := move.tokens invariant.bounds
    have before := invariant.tokens
    rw [← same ReaderPc.tokens rfl] at before
    simp only
    omega
  · exact invariant.reads.trans (congrArg _ (same ReaderPc.reads rfl).symm)
  · have carried := move.reports
    rw [← same ReaderPc.reports rfl] at due
    simp only [readersAdded, writerAdded, cond_true]
    omega
  · exact fun reader => (readers reader).trans (invariant.readers reader)
  · simp [move.stays, launched]
  · have none_ := invariant.stopped atStopped
    omega

/-- Launching a reader changes no weight that it had before its launch. -/
theorem tally_launch {weight : ReaderPc → Nat} (same : weight .select = weight .notLaunched)
    {readers : Fin maxReaders → ReaderPc} {reader : Fin maxReaders}
    (here : readers reader = .notLaunched) :
    tally weight (Function.update readers reader .select) = tally weight readers := by
  -- A reader that is launched weighs as much as before.
  have moved := tally_update weight readers reader .select
  rw [here, same] at moved
  omega

/-- Launching the next reader preserves the invariant. -/
theorem Invariant.launch {state : State maxReaders} (invariant : Invariant maxReads state)
    {reader : Nat} (here : state.main = .launch reader) (launched : reader < maxReaders) :
    Invariant maxReads { state.readerAt ⟨reader, launched⟩ .select with
      main := .launch (reader + 1) } := by
  -- The reader launched is the first one that was not; no sum sees a difference.
  have unlaunched : state.readers ⟨reader, launched⟩ = .notLaunched :=
    (invariant.readers _).mpr (by simp [here, MainPc.before])
  refine ⟨?_, invariant.capacity, invariant.bounds, invariant.write, ?_, ?_, ?_, ?_, ?_, ?_, ?_, ?_,
    invariant.writerLeaves⟩
  · exact invariant.tokens.trans (by simp only [State.readerAt]; rw [tally_launch rfl unlaunched])
  · intro other blocked
    by_cases same : other = ⟨reader, launched⟩
    · simp [State.readerAt, same] at blocked
    · simp only [State.readerAt, Function.update_of_ne same] at blocked
      exact invariant.blocked other blocked
  · exact invariant.reads.trans (by simp only [State.readerAt]; rw [tally_launch rfl unlaunched])
  · have reports := invariant.reports
    simp only [here, State.readerAt] at reports ⊢
    rw [tally_launch rfl unlaunched]
    exact reports
  · intro other
    by_cases same : other = ⟨reader, launched⟩
    · simp [State.readerAt, same, MainPc.before]
    · have unequal : (other : Nat) ≠ reader := fun equal => same (Fin.ext equal)
      have before := invariant.readers other
      simp only [here, MainPc.before] at before
      simp only [State.readerAt, Function.update_of_ne same, before, MainPc.before]
      omega
  · simpa [here, State.readerAt, MainPc.writerLaunched] using invariant.writer
  · simpa [here, State.readerAt, MainPc.closed] using invariant.shutdown
  · simp
  · intro other leaving
    by_cases same : other = ⟨reader, launched⟩
    · simp [State.readerAt, same, ReaderPc.leaving] at leaving
    · simp only [State.readerAt, Function.update_of_ne same] at leaving
      exact invariant.readersLeave other leaving

/-- Every step of the goroutine that starts and stops the others preserves the invariant. -/
theorem Invariant.mainStep {state next : State maxReaders} (invariant : Invariant maxReads state)
    (stepped : mainStep state = some next) : Invariant maxReads next := by
  -- One case per instruction; what `start` adds is what the goroutines will report.
  unfold Semaphore.mainStep at stepped
  have reports := invariant.reports
  have readers := invariant.readers
  have writer := invariant.writer
  have shutdown := invariant.shutdown
  split at stepped <;> rename_i here <;> simp only [here] at reports readers writer shutdown
  case h_1 =>
    obtain rfl := Option.some.inj stepped
    have all : tally ReaderPc.reports state.readers = maxReaders := by
      have each : ∀ reader, (state.readers reader).reports = 1 := fun reader => by
        rw [(readers reader).mpr trivial]
        rfl
      rw [tally_eq_card each, Fintype.card_fin]
    refine { invariant with
      reports := ?_, readers := ?_, writer := ?_, shutdown := ?_, stopped := ?_ }
    · simp only [MainPc.readersAdded, MainPc.writerAdded, cond_true, cond_false] at reports ⊢
      omega
    · simpa [MainPc.before] using readers
    · simpa [MainPc.writerLaunched] using writer
    · simpa [MainPc.closed] using shutdown
    · simp
  case h_2 reader =>
    split at stepped
    · rename_i launched
      obtain rfl := Option.some.inj stepped
      exact invariant.launch here launched
    · rename_i beyond
      obtain rfl := Option.some.inj stepped
      refine { invariant with
        reports := ?_, readers := fun other => ?_, writer := ?_, shutdown := ?_, stopped := ?_ }
      · exact reports
      · have inRange := other.isLt
        have before := readers other
        exact ⟨fun early => absurd (before.mp early) (by simp only [MainPc.before]; omega),
          False.elim⟩
      · simpa [MainPc.writerLaunched] using writer
      · simpa [MainPc.closed] using shutdown
      · simp
  case h_3 =>
    obtain rfl := Option.some.inj stepped
    have unlaunched : state.writer = .notLaunched := writer.mpr rfl
    refine { invariant with
      reports := ?_, readers := ?_, writer := ?_, shutdown := ?_, stopped := ?_ }
    · simp only [MainPc.readersAdded, MainPc.writerAdded, cond_true, cond_false, unlaunched,
        WriterPc.reports] at reports ⊢
      omega
    · simpa [MainPc.before] using readers
    · simpa [MainPc.writerLaunched] using writer
    · simpa [MainPc.closed] using shutdown
    · simp
  case h_4 =>
    obtain rfl := Option.some.inj stepped
    have unlaunched : state.writer = .notLaunched := writer.mpr rfl
    have tokens := invariant.tokens
    have write := invariant.write
    rw [unlaunched] at tokens write reports
    refine { invariant with
      tokens := tokens, bounds := trivial, write := write, reports := reports
      readers := ?_, writer := ?_, shutdown := ?_, stopped := ?_, writerLeaves := nofun }
    · simpa [MainPc.before] using readers
    · simp [MainPc.writerLaunched]
    · simpa [MainPc.closed] using shutdown
    · simp
  case h_5 =>
    obtain rfl := Option.some.inj stepped
    refine { invariant with
      reports := reports, readers := ?_, writer := ?_, shutdown := rfl, stopped := ?_
      readersLeave := fun _ _ => rfl, writerLeaves := fun _ => rfl }
    · simpa [MainPc.before] using readers
    · simpa [MainPc.writerLaunched] using writer
    · simp
  case h_6 =>
    simp only [Option.ite_none_right_eq_some, Option.some.injEq] at stepped
    obtain ⟨everyone, rfl⟩ := stepped
    refine { invariant with
      reports := reports, readers := ?_, writer := ?_, shutdown := shutdown
      stopped := fun _ => everyone }
    · simpa [MainPc.before] using readers
    · simpa [MainPc.writerLaunched] using writer
  case h_7 => cases stepped

/-- Every step of the machine preserves the invariant. -/
theorem Invariant.step {state next : State maxReaders} {actor : Actor maxReaders}
    (invariant : Invariant maxReads state)
    (stepped : (readerWriter maxReads maxReaders).step state actor = some next) :
    Invariant maxReads next := by
  -- The invariant is kept by each of the goroutines.
  cases actor with
  | main => exact invariant.mainStep stepped
  | reader reader => exact invariant.readerStep stepped
  | writer => exact invariant.writerStep stepped

/-- The invariant holds in every state that a `readerWriter` gets into. -/
theorem invariant_of_run {state : State maxReaders} {actors : List (Actor maxReaders)}
    (ran : (readerWriter maxReads maxReaders).run (initial maxReaders) actors = some state) :
    Invariant maxReads state :=
  Machine.run_invariant (fun _ _ _ invariant stepped => invariant.step stepped)
    invariant_initial ran

/-- The reader is at the head of its loop or has returned. -/
def ReaderPc.AtRest (pc : ReaderPc) : Prop :=
  pc = .select ∨ pc = .returned

/-- The writer is at the head of its loop or has returned. -/
def WriterPc.AtRest (pc : WriterPc) : Prop :=
  pc = .select ∨ pc = .returned

/-- A reader that owns an element of the channel can step. -/
theorem readerStep_of_tokens {state : State maxReaders} (invariant : Invariant maxReads state)
    {reader : Fin maxReaders} (owns : 0 < (state.readers reader).tokens) :
    ∃ next, readerStep maxReads state reader = some next := by
  -- The channel holds what the reader has put in, so it can be taken out again.
  have mine := le_tally ReaderPc.tokens state.readers reader
  have full := invariant.tokens
  have some_ : 0 < state.readerControl := by omega
  cases here : state.readers reader <;> simp [here, ReaderPc.tokens] at owns <;>
    simp [readerStep, here, some_]

/-- When the channel is full and the writer does not own all of it, some reader can step. -/
theorem readerStep_of_full {state : State maxReaders} (invariant : Invariant maxReads state)
    (full : ¬ state.readerControl < maxReads) (partly : state.writer.tokens maxReads < maxReads) :
    ∃ reader next, readerStep maxReads state reader = some next ∧
      ¬ (state.readers reader).AtRest := by
  -- The channel is full and the writer does not hold all of it, so a reader holds an element.
  have owned : 0 < tally ReaderPc.tokens state.readers := by
    have elements := invariant.tokens
    omega
  obtain ⟨reader, owns⟩ := exists_of_tally_pos owned
  obtain ⟨next, stepped⟩ := readerStep_of_tokens invariant owns
  refine ⟨reader, next, stepped, fun resting => ?_⟩
  -- A reader that holds an element does not rest.
  rcases resting with here | here <;> simp [here, ReaderPc.tokens] at owns

/-- Once `start` is done, whenever somebody is not at rest, somebody who is not can step. -/
theorem exists_step_of_not_atRest {state : State maxReaders} (positive : 0 < maxReads)
    (invariant : Invariant maxReads state) (started : state.main.writerLaunched = true)
    (busy : ¬ (state.writer.AtRest ∧ ∀ reader, (state.readers reader).AtRest)) :
    (∃ next, writerStep maxReads state = some next ∧ ¬ state.writer.AtRest) ∨
      ∃ reader next, readerStep maxReads state reader = some next ∧
        ¬ (state.readers reader).AtRest := by
  -- The writer goes first; it waits only for elements that readers own, and they can return them.
  have elements := invariant.tokens
  have bounds := invariant.bounds
  by_cases writing : state.writer.AtRest
  · have free : state.write = 0 ∧ state.writer.tokens maxReads = 0 := by
      rw [invariant.write]
      rcases writing with here | here <;> simp [here, WriterPc.locks, WriterPc.tokens]
    obtain ⟨reader, moving⟩ : ∃ reader, ¬ (state.readers reader).AtRest := by
      simpa [writing] using busy
    have unblocked : state.readers reader ≠ .blocked := fun here => by
      have positive_ := invariant.blocked reader here
      omega
    have launched : state.readers reader ≠ .notLaunched := fun here => by
      have early := (invariant.readers reader).mp here
      cases atMain : state.main <;>
        simp [atMain, MainPc.before, MainPc.writerLaunched] at early started
    by_cases full : state.readerControl < maxReads
    · refine .inr ⟨reader, ?_⟩
      by_cases owns : 0 < (state.readers reader).tokens
      · obtain ⟨next, stepped⟩ := readerStep_of_tokens invariant owns
        exact ⟨next, stepped, moving⟩
      · cases here : state.readers reader <;>
          simp [here, ReaderPc.tokens, ReaderPc.AtRest] at owns moving unblocked launched <;>
          simp [readerStep, here, full, ReaderPc.AtRest]
    · exact .inr (readerStep_of_full invariant full (by omega))
  · have launched : state.writer ≠ .notLaunched := fun here => by
      simp [invariant.writer.mp here] at started
    cases here : state.writer <;>
      simp [here, WriterPc.AtRest, WriterPc.InBounds] at writing launched bounds
    case acquire buffer =>
      by_cases more : buffer < maxReads
      · by_cases full : state.readerControl < maxReads
        · exact .inl (by simp [writerStep, here, more, full, WriterPc.AtRest])
        · exact .inr (readerStep_of_full invariant full (by rwa [here]))
      · exact .inl (by simp [writerStep, here, more, WriterPc.AtRest])
    case release buffer =>
      by_cases more : buffer < maxReads
      · have some_ : 0 < state.readerControl := by
          simp only [here, WriterPc.tokens] at elements
          omega
        exact .inl (by simp [writerStep, here, more, some_, WriterPc.AtRest])
      · exact .inl (by simp [writerStep, here, more, WriterPc.AtRest])
    all_goals exact .inl (by simp [writerStep, here, WriterPc.AtRest])

/-- The part of `start` and `stop` that is left once `shutdown` is closed. -/
def MainPc.rank : MainPc → Nat
  | .waitReport => 1
  | _ => 0

/-- How many steps all goroutines together are from their returns, once `shutdown` is closed. -/
def State.distance (maxReads : Nat) (state : State maxReaders) : Nat :=
  tally ReaderPc.rank state.readers + state.writer.rank maxReads + state.main.rank

/-- A step of a reader brings it closer to its return, unless it starts another read. -/
theorem distance_readerStep {state next : State maxReaders} {reader : Fin maxReaders}
    (stepped : readerStep maxReads state reader = some next)
    (inside : state.readers reader ≠ .select ∨ state.shutdown = true) :
    next.distance maxReads < state.distance maxReads := by
  have move := readerStep_move stepped
  have moved := state.tally_readerAt reader (next.readers reader) ReaderPc.rank
  -- A reader comes closer to its end, unless it begins another round, which the shutdown prevents.
  have closer : (next.readers reader).rank < (state.readers reader).rank := by
    rcases move.closer with ⟨atSelect, opened⟩ | closer
    · simp [atSelect, opened] at inside
    · exact closer
  rw [move.moved]
  simp only [State.distance, State.readerAt] at moved ⊢
  omega

/-- A step of the writer brings it closer to its return, unless it starts another write. -/
theorem distance_writerStep {state next : State maxReaders}
    (stepped : writerStep maxReads state = some next)
    (inside : state.writer ≠ .select ∨ state.shutdown = true) :
    next.distance maxReads < state.distance maxReads := by
  -- Readers that the writer lets through come closer to their returns, too.
  have move := writerStep_move stepped
  have closer : next.writer.rank maxReads < state.writer.rank maxReads := by
    rcases move.closer with ⟨atSelect, opened⟩ | closer
    · simp [atSelect, opened] at inside
    · exact closer
  have readers : tally ReaderPc.rank next.readers ≤ tally ReaderPc.rank state.readers := by
    rcases move.woken with ⟨stay, _⟩ | woken
    · rw [stay]
    · rw [woken]
      refine tally_mono fun reader => ?_
      by_cases blocked : next.write = 0 ∧ state.readers reader = .blocked
      · simp [wake, blocked.1, blocked.2, ReaderPc.rank]
      · simp [wake, blocked]
  rw [move.moved]
  simp only [State.distance]
  omega

/-- Steps of readers and of the writer leave `shutdown` and the other goroutine alone. -/
theorem main_of_step {state next : State maxReaders} {actor : Actor maxReaders}
    (stepped : (readerWriter maxReads maxReaders).step state actor = some next)
    (other : actor ≠ .main) : next.main = state.main ∧ next.shutdown = state.shutdown := by
  -- Readers and the writer change their own place and the channel only.
  cases actor with
  | main => exact absurd rfl other
  | reader reader =>
    rw [(readerStep_move stepped).moved]
    exact ⟨rfl, rfl⟩
  | writer =>
    rw [(writerStep_move stepped).moved]
    exact ⟨rfl, rfl⟩

/-- Once `shutdown` is closed it stays closed, and every step brings all closer to their returns. -/
theorem step_of_shutdown {state next : State maxReaders} {actor : Actor maxReaders}
    (invariant : Invariant maxReads state) (closed : state.shutdown = true)
    (stepped : (readerWriter maxReads maxReaders).step state actor = some next) :
    next.shutdown = true ∧ next.distance maxReads < state.distance maxReads := by
  cases actor with
  | main =>
    -- main has closed the channel, so it waits for the goroutines or has returned.
    have atMain := invariant.shutdown
    simp only [readerWriter] at stepped
    cases here : state.main <;> simp [here, closed, MainPc.closed] at atMain <;>
      simp [mainStep, here] at stepped
    obtain ⟨_, rfl⟩ := stepped
    simp [closed, State.distance, here, MainPc.rank]
  | reader reader =>
    -- A goroutine begins no further round.
    exact ⟨(main_of_step stepped (by simp)).2.trans closed,
      distance_readerStep stepped (.inr closed)⟩
  | writer =>
    exact ⟨(main_of_step stepped (by simp)).2.trans closed,
      distance_writerStep stepped (.inr closed)⟩

/-- Every goroutine has returned, and so has `stop`. -/
def State.Done (state : State maxReaders) : Prop :=
  state.main = .stopped ∧ state.writer = .returned ∧ ∀ reader, state.readers reader = .returned

/-- Nothing is left to report exactly when everybody has returned. -/
theorem reportShutdown_eq_zero_iff {state : State maxReaders} (invariant : Invariant maxReads state)
    (launched : state.main.writerLaunched = true) :
    state.reportShutdown = 0 ↔
      state.writer = .returned ∧ ∀ reader, state.readers reader = .returned := by
  have reports := invariant.reports
  -- With the writer launched, the wait group has been told of all the goroutines.
  have readersAdded : state.main.readersAdded = true := by
    cases atMain : state.main <;>
      simp [MainPc.writerLaunched, MainPc.readersAdded, atMain] at launched ⊢
  have writerAdded : state.main.writerAdded = true := by
    cases atMain : state.main <;>
      simp [MainPc.writerLaunched, MainPc.writerAdded, atMain] at launched ⊢
  simp only [readersAdded, writerAdded, cond_true] at reports
  -- A goroutine that has not returned is counted once.
  have reader : ∀ pc : ReaderPc, pc.reports = 0 ↔ pc = .returned := fun pc => by
    cases pc <;> simp [ReaderPc.reports]
  have writer : ∀ pc : WriterPc, pc.reports = 0 ↔ pc = .returned := fun pc => by
    cases pc <;> simp [WriterPc.reports]
  simp only [reports, Nat.add_eq_zero_iff, tally_eq_zero_iff, reader, writer]
  exact And.comm

/-- Once `shutdown` is closed, somebody can step until everybody has returned. -/
theorem exists_step_of_shutdown {state : State maxReaders} (positive : 0 < maxReads)
    (invariant : Invariant maxReads state) (closed : state.shutdown = true)
    (unfinished : ¬ state.Done) :
    ∃ actor next, (readerWriter maxReads maxReaders).step state actor = some next := by
  have atMain := invariant.shutdown
  rw [closed] at atMain
  have launched : state.main.writerLaunched = true := by
    cases here : state.main <;> simp [here, MainPc.closed, MainPc.writerLaunched] at atMain ⊢
  by_cases resting : state.writer.AtRest ∧ ∀ reader, (state.readers reader).AtRest
  · -- Those at the head of their loops see the closed channel and return.
    by_cases writing : state.writer = .select
    · exact ⟨.writer, by simp [readerWriter, writerStep, writing]⟩
    by_cases reading : ∃ reader, state.readers reader = .select
    · obtain ⟨reader, here⟩ := reading
      exact ⟨.reader reader, by simp [readerWriter, readerStep, here]⟩
    have returned : state.writer = .returned ∧ ∀ reader, state.readers reader = .returned :=
      ⟨resting.1.resolve_left writing, fun reader =>
        (resting.2 reader).resolve_left fun here => reading ⟨reader, here⟩⟩
    have everyone := (reportShutdown_eq_zero_iff invariant launched).mpr returned
    refine ⟨.main, ?_⟩
    cases here : state.main <;> simp [here, MainPc.closed] at atMain
    case waitReport => simp [readerWriter, mainStep, here, everyone]
    case stopped => exact absurd ⟨here, returned⟩ unfinished
  · rcases exists_step_of_not_atRest positive invariant launched resting with
      ⟨next, stepped, _⟩ | ⟨reader, next, stepped, _⟩
    · exact ⟨.writer, next, stepped⟩
    · exact ⟨.reader reader, next, stepped⟩

/-- Before `shutdown` is closed, those at rest are at the heads of their loops. -/
theorem atSelect_of_atRest {state : State maxReaders} (invariant : Invariant maxReads state)
    (opened : state.shutdown = false)
    (resting : state.writer.AtRest ∧ ∀ reader, (state.readers reader).AtRest) :
    state.writer = .select ∧ ∀ reader, state.readers reader = .select := by
  -- Before the shutdown nobody has left the loop.
  refine ⟨resting.1.resolve_right fun here => ?_, fun reader =>
    (resting.2 reader).resolve_right fun here => ?_⟩
  · simpa [opened] using invariant.writerLeaves (by rw [here]; rfl)
  · simpa [opened] using invariant.readersLeave reader (by rw [here]; rfl)

/-- Before `shutdown` is closed, somebody other than a caller of `stop` can step. -/
theorem exists_step_of_open {state : State maxReaders} (positive : 0 < maxReads)
    (invariant : Invariant maxReads state) (opened : state.shutdown = false) :
    ∃ actor next, (readerWriter maxReads maxReaders).step state actor = some next ∧
      (state.main = .started → actor ≠ .main) := by
  have atMain := invariant.shutdown
  rw [opened] at atMain
  cases here : state.main <;> simp [here, MainPc.closed] at atMain
  case started =>
    have launched : state.main.writerLaunched = true := by rw [here]; rfl
    -- If everybody rests, the writer can begin a round; otherwise somebody goes on.
    by_cases resting : state.writer.AtRest ∧ ∀ reader, (state.readers reader).AtRest
    · have looping := (atSelect_of_atRest invariant opened resting).1
      exact ⟨.writer, by simp [readerWriter, writerStep, looping]⟩
    · rcases exists_step_of_not_atRest positive invariant launched resting with
        ⟨next, stepped, _⟩ | ⟨reader, next, stepped, _⟩
      · exact ⟨.writer, next, stepped, by simp⟩
      · exact ⟨.reader reader, next, stepped, by simp⟩
  -- main launches a reader, or the writer after the last of them.
  case launch reader =>
    refine ⟨.main, ?_⟩
    by_cases launched : reader < maxReaders <;> simp [readerWriter, mainStep, here, launched]
  all_goals exact ⟨.main, by simp [readerWriter, mainStep, here]⟩

/-- Before `shutdown` is closed, all goroutines can get to the heads of their loops together. -/
theorem reaches_select {state : State maxReaders} (positive : 0 < maxReads)
    (invariant : Invariant maxReads state) (started : state.main = .started) :
    ∃ finish, (readerWriter maxReads maxReaders).Reaches state finish ∧ finish.main = .started ∧
      finish.writer = .select ∧ ∀ reader, finish.readers reader = .select := by
  -- Only goroutines inside their loops step, and they all come closer to the ends of their rounds.
  have opened : ∀ state : State maxReaders, Invariant maxReads state → state.main = .started →
      state.shutdown = false := fun state invariant here => by
    rw [invariant.shutdown, here]
    rfl
  have progress : ∀ state : State maxReaders, Invariant maxReads state ∧ state.main = .started →
      ¬ (state.writer.AtRest ∧ ∀ reader, (state.readers reader).AtRest) → ∃ actor next,
        (readerWriter maxReads maxReaders).step state actor = some next ∧
          (Invariant maxReads next ∧ next.main = .started) ∧
          next.distance maxReads < state.distance maxReads := by
    rintro state ⟨invariant, started⟩ busy
    have launched : state.main.writerLaunched = true := by rw [started]; rfl
    rcases exists_step_of_not_atRest positive invariant launched busy with
      ⟨next, stepped, moving⟩ | ⟨reader, next, stepped, moving⟩
    · have there : (readerWriter maxReads maxReaders).step state .writer = some next := stepped
      exact ⟨.writer, next, there, ⟨invariant.step there,
        (main_of_step there (by simp)).1.trans started⟩,
        distance_writerStep stepped (.inl fun here => moving (.inl here))⟩
    · have there : (readerWriter maxReads maxReaders).step state (.reader reader) = some next :=
        stepped
      exact ⟨.reader reader, next, there, ⟨invariant.step there,
        (main_of_step there (by simp)).1.trans started⟩,
        distance_readerStep stepped (.inl fun here => moving (.inl here))⟩
  obtain ⟨finish, reaches, ⟨kept, here⟩, resting⟩ :=
    Machine.reaches_done (State.distance maxReads) progress ⟨invariant, started⟩
  exact ⟨finish, reaches, here, atSelect_of_atRest kept (opened finish kept here) resting⟩

/-- Once `shutdown` is closed, everybody can get to the end. -/
theorem reaches_done_of_shutdown {state : State maxReaders} (positive : 0 < maxReads)
    (invariant : Invariant maxReads state) (closed : state.shutdown = true) :
    ∃ finish, (readerWriter maxReads maxReaders).Reaches state finish ∧ finish.Done := by
  -- After the shutdown some step is possible until all is done, and it lowers the distance.
  have progress : ∀ state : State maxReaders, Invariant maxReads state ∧ state.shutdown = true →
      ¬ state.Done → ∃ actor next,
        (readerWriter maxReads maxReaders).step state actor = some next ∧
          (Invariant maxReads next ∧ next.shutdown = true) ∧
          next.distance maxReads < state.distance maxReads := by
    rintro state ⟨invariant, closed⟩ unfinished
    obtain ⟨actor, next, stepped⟩ := exists_step_of_shutdown positive invariant closed unfinished
    have stepping := step_of_shutdown invariant closed stepped
    exact ⟨actor, next, stepped, ⟨invariant.step stepped, stepping.1⟩, stepping.2⟩
  obtain ⟨finish, reaches, _, done⟩ :=
    Machine.reaches_done (State.distance maxReads) progress ⟨invariant, closed⟩
  exact ⟨finish, reaches, done⟩

/-- Once `shutdown` is closed, no run goes on forever, and none stops before the end. -/
theorem run_of_shutdown {state finish : State maxReaders} {actors : List (Actor maxReaders)}
    (positive : 0 < maxReads) (invariant : Invariant maxReads state)
    (closed : state.shutdown = true)
    (ran : (readerWriter maxReads maxReaders).run state actors = some finish) :
    actors.length ≤ state.distance maxReads ∧
      ((∀ actor, (readerWriter maxReads maxReaders).step finish actor = none) → finish.Done) := by
  -- The invariant and the shutdown stay.
  have preserved : ∀ (state : State maxReaders) (actor : Actor maxReaders)
      (next : State maxReaders),
      Invariant maxReads state ∧ state.shutdown = true →
      (readerWriter maxReads maxReaders).step state actor = some next →
      Invariant maxReads next ∧ next.shutdown = true :=
    fun _ _ _ good stepped => ⟨good.1.step stepped, (step_of_shutdown good.1 good.2 stepped).1⟩
  -- Every step lowers the distance.
  have lowered : ∀ (state : State maxReaders) (actor : Actor maxReaders) (next : State maxReaders),
      Invariant maxReads state ∧ state.shutdown = true →
      (readerWriter maxReads maxReaders).step state actor = some next →
      next.distance maxReads + (if (fun _ => true) actor then 1 else 0) ≤ state.distance maxReads :=
    fun _ _ _ good stepped => (step_of_shutdown good.1 good.2 stepped).2
  have bounded := Machine.run_progress_le preserved lowered ⟨invariant, closed⟩ ran
  refine ⟨by simpa using Nat.le_of_add_right_le bounded, fun stuck => ?_⟩
  -- A state without a step that is not done contradicts progress.
  by_contra unfinished
  have good := Machine.run_invariant preserved ⟨invariant, closed⟩ ran
  obtain ⟨actor, next, stepped⟩ := exists_step_of_shutdown positive good.1 good.2 unfinished
  rw [stuck actor] at stepped
  cases stepped

/-- The readers between `ReadLock` and `ReadUnlock`. -/
def State.insideReadLock (state : State maxReaders) : Finset (Fin maxReaders) :=
  Finset.univ.filter fun reader =>
    state.readers reader = .enter ∨ state.readers reader = .reading ∨
      state.readers reader = .release

/-- Readers own as many elements of the channel as there are readers inside their locks. -/
theorem tally_tokens (state : State maxReaders) :
    tally ReaderPc.tokens state.readers = state.insideReadLock.card := by
  rw [State.insideReadLock, Finset.card_filter]
  refine Finset.sum_congr rfl fun reader _ => ?_
  cases state.readers reader <;> simp [ReaderPc.tokens]

/-- No more reads are counted than readers are inside their locks. -/
theorem currentReads_le {state : State maxReaders} (invariant : Invariant maxReads state) :
    state.currentReads.toInt ≤ state.insideReadLock.card := by
  -- A reader that is counted holds an element of the channel.
  have fewer : tally ReaderPc.reads state.readers ≤ state.insideReadLock.card := by
    rw [← tally_tokens]
    refine Finset.sum_le_sum fun reader _ => ?_
    cases state.readers reader <;> simp [ReaderPc.tokens, ReaderPc.reads]
  rw [invariant.reads, BitVec.toInt_eq_toNat_cond, BitVec.toNat_ofNat]
  -- The counter is an int32, which may only be less than what it counts.
  have small := Nat.mod_le (tally ReaderPc.reads state.readers) (2 ^ 32)
  split <;> omega

/--
Readers and the writer exclude each other, nobody is stuck, and shutdown lets everybody return.

The channel never holds an element that nobody owns, whatever the interleaving. Before `shutdown` is
closed somebody can always step, and all goroutines can get to the heads of their loops. Afterwards
every run is bounded and goes on until everybody has returned, which is what `stop` waits for.
-/
theorem readerWriter_correct {state : State maxReaders} {actors : List (Actor maxReaders)}
    (positive : 0 < maxReads)
    (ran : (readerWriter maxReads maxReaders).run (initial maxReaders) actors = some state) :
    (state.writer = .writing → state.insideReadLock = ∅) ∧
    state.insideReadLock.card ≤ maxReads ∧
    state.currentReads.toInt ≤ maxReads ∧
    state.readerControl = state.insideReadLock.card + state.writer.tokens maxReads ∧
    (state.shutdown = false →
      (∃ actor next, (readerWriter maxReads maxReaders).step state actor = some next ∧
        (state.main = .started → actor ≠ .main)) ∧
      (state.main = .started → ∃ finish, (readerWriter maxReads maxReaders).Reaches state finish ∧
        finish.main = .started ∧ finish.writer = .select ∧
        ∀ reader, finish.readers reader = .select)) ∧
    (state.shutdown = true →
      (∃ finish, (readerWriter maxReads maxReaders).Reaches state finish ∧ finish.Done) ∧
      ∀ more finish, (readerWriter maxReads maxReaders).run state more = some finish →
        more.length ≤ state.distance maxReads ∧
        ((∀ actor, (readerWriter maxReads maxReaders).step finish actor = none) → finish.Done)) ∧
    (state.main = .stopped →
      state.writer = .returned ∧ ∀ reader, state.readers reader = .returned) := by
  -- Everything about this one state is read off the invariant.
  have invariant := invariant_of_run ran
  have tokens := invariant.tokens
  have capacity := invariant.capacity
  have reads := currentReads_le invariant
  rw [tally_tokens] at tokens
  refine ⟨fun writing => ?_, by omega, by omega, tokens, fun opened =>
    ⟨exists_step_of_open positive invariant opened, reaches_select positive invariant⟩,
    fun closed => ⟨reaches_done_of_shutdown positive invariant closed, fun more finish further =>
      run_of_shutdown positive invariant closed further⟩, fun stopped => ?_⟩
  · rw [writing, WriterPc.tokens] at tokens
    exact Finset.card_eq_zero.mp (by omega)
  · have launched : state.main.writerLaunched = true := by rw [stopped]; rfl
    exact (reportShutdown_eq_zero_iff invariant launched).mp (invariant.stopped stopped)

/-- A start with one reader, which gets its lock before the writer asks for all buffers. -/
def waitingRun : List (Actor 1) :=
  [.main, .main, .main, .main, .main, .reader 0, .reader 0, .reader 0, .writer, .writer, .writer]

/-- The writer waits for the reader that is inside its lock, and owns no element meanwhile. -/
theorem readerWriter_correct_waiting : ∃ state,
    (readerWriter 1 1).run (initial 1) waitingRun = some state ∧
    state.writer = .acquire 0 ∧ state.readerControl = 1 ∧ state.insideReadLock.card ≤ 1 ∧
    state.readerControl = state.insideReadLock.card + state.writer.tokens 1 := by
  -- The reader holds the only element, so the writer waits for it.
  obtain ⟨state, ran, writer, full⟩ : ∃ state,
      (readerWriter 1 1).run (initial 1) waitingRun = some state ∧
      state.writer = .acquire 0 ∧ state.readerControl = 1 := ⟨_, rfl, rfl, rfl⟩
  have correct := readerWriter_correct Nat.one_pos ran
  exact ⟨state, ran, writer, full, correct.2.1, correct.2.2.2.1⟩

end SysProg.GoPatterns.Semaphore
