import SysProg.Lib.Machine

/-! Loops that read and write, in a row, each of which reads what the one before it has written. -/

namespace SysProg

/-- A loop that reads into a buffer, and writes what it makes of this. -/
structure Stage (α : Type) where
  /-- The size of the buffer. -/
  size : Nat
  transform : List α → List α
  /-- How much fits into the channel behind it, unless there is no bound. -/
  room : Option Nat

/-- Where a loop stands, with the channel behind it. -/
structure Segment (α : Type) where
  stage : Stage α
  /-- What is still to be written. -/
  held : List α
  /-- The end of the input has been read, and the channel behind has been closed. -/
  finished : Bool
  out : List α

/-- What a loop does next. -/
inductive Move where
  | read (count : Nat)
  | write (count : Nat)
  /-- It reads the end of its input. -/
  | eof
  deriving DecidableEq, Repr

variable {α : Type}

/-- A loop that has just begun. -/
def Stage.start (stage : Stage α) : Segment α :=
  ⟨stage, [], false, []⟩

/-- One step of a loop, with the channel before it, which may have been closed. -/
def Segment.step (input : List α) (closed : Bool) (segment : Segment α) :
    Move → Option (List α × Segment α)
  | .read count =>
    if segment.held = [] ∧ segment.finished = false ∧ 0 < count ∧ count ≤ segment.stage.size ∧
        count ≤ input.length then
      some (input.drop count,
        { segment with held := segment.stage.transform (input.take count) })
    else none
  | .write count =>
    if 0 < count ∧ count ≤ segment.held.length ∧
        ∀ room ∈ segment.stage.room, segment.out.length + count ≤ room then
      some (input, { segment with
        held := segment.held.drop count
        out := segment.out ++ segment.held.take count })
    else none
  | .eof =>
    if segment.held = [] ∧ segment.finished = false ∧ input = [] ∧ closed = true then
      some (input, { segment with finished := true })
    else none

namespace Pipeline

/-- One step of one of the loops. -/
def stepAt (input : List α) (closed : Bool) :
    List (Segment α) → Nat → Move → Option (List α × List (Segment α))
  | [], _, _ => none
  | segment :: rest, 0, move => do
    let (input, segment) ← segment.step input closed move
    return (input, segment :: rest)
  | segment :: rest, index + 1, move => do
    -- The channel behind this loop is the one before the next.
    let (out, rest) ← stepAt segment.out segment.finished rest index move
    return (input, { segment with out } :: rest)

/-- What has not been read by the first loop, and all loops. -/
structure State (α : Type) where
  input : List α
  segments : List (Segment α)

/-- The loops, which take turns in any order; nothing is added to the input of the first. -/
def machine (α : Type) : Machine (State α) (Nat × Move) where
  step state action :=
    (stepAt state.input true state.segments action.1 action.2).map fun (input, segments) =>
      ⟨input, segments⟩

/-- All loops have just begun. -/
def initial (stages : List (Stage α)) (input : List α) : State α :=
  ⟨input, stages.map Stage.start⟩

/-- What is in the last channel. -/
def output (input : List α) : List (Segment α) → List α
  | [] => input
  | segment :: rest => output segment.out rest

/-- All that is on its way, from the end of the last channel back to the first. -/
def content (input : List α) : List (Segment α) → List α
  | [] => input
  | segment :: rest => content (segment.out ++ (segment.held ++ input)) rest

/-- A loop that has read the end of its input has written everything. -/
def Sealed (input : List α) (closed : Bool) : List (Segment α) → Prop
  | [] => True
  | segment :: rest =>
    (segment.finished = true → segment.held = [] ∧ input = [] ∧ closed = true) ∧
      Sealed segment.out segment.finished rest

/-- Every loop can do something, with a channel behind the last one that has no bound. -/
def Able : List (Stage α) → Prop
  | [] => True
  | stage :: rest =>
    0 < stage.size ∧ (∀ room ∈ stage.room, 0 < room) ∧ (rest = [] → stage.room = none) ∧ Able rest

/-- How many steps can still be taken, at most. -/
def left (input : List α) : List (Segment α) → Nat
  | [] => 0
  | segment :: rest =>
    2 * (rest.length + 1) * input.length + (2 * rest.length + 1) * segment.held.length +
      (if segment.finished then 0 else 1) + left segment.out rest

variable {input after : List α} {closed : Bool} {segment next : Segment α}
  {segments later : List (Segment α)} {index : Nat} {move : Move} {good : α → Prop}

/-- What one step of a loop can do. -/
inductive Moves (input : List α) (closed : Bool) (segment : Segment α) :
    Move → List α → Segment α → Prop where
  | read {count : Nat} (empty : segment.held = []) (going : segment.finished = false)
    (some_ : 0 < count) (fits : count ≤ segment.stage.size) (there : count ≤ input.length) :
    Moves input closed segment (.read count) (input.drop count)
      { segment with held := segment.stage.transform (input.take count) }
  | write {count : Nat} (some_ : 0 < count) (there : count ≤ segment.held.length)
    (fits : ∀ room ∈ segment.stage.room, segment.out.length + count ≤ room) :
    Moves input closed segment (.write count) input { segment with
      held := segment.held.drop count
      out := segment.out ++ segment.held.take count }
  | eof (empty : segment.held = []) (going : segment.finished = false) (over_ : input = [])
    (ended : closed = true) :
    Moves input closed segment .eof input { segment with finished := true }

/-- Each step of a loop is one of these. -/
theorem moves_of_step (stepped : segment.step input closed move = some (after, next)) :
    Moves input closed segment move after next := by
  -- For each move, the step is made exactly under the conditions of its rule.
  cases move with
  | read count =>
    simp only [Segment.step] at stepped
    split at stepped
    next able =>
      obtain ⟨rfl, rfl⟩ := Prod.mk.inj (Option.some.inj stepped)
      exact .read able.1 able.2.1 able.2.2.1 able.2.2.2.1 able.2.2.2.2
    · exact nomatch stepped
  | write count =>
    simp only [Segment.step] at stepped
    split at stepped
    next able =>
      obtain ⟨rfl, rfl⟩ := Prod.mk.inj (Option.some.inj stepped)
      exact .write able.1 able.2.1 able.2.2
    · exact nomatch stepped
  | eof =>
    simp only [Segment.step] at stepped
    split at stepped
    next able =>
      obtain ⟨rfl, rfl⟩ := Prod.mk.inj (Option.some.inj stepped)
      exact .eof able.1 able.2.1 able.2.2.1 able.2.2.2
    · exact nomatch stepped

/-- A step of the first loop leaves the others alone; a step of another reads from behind it. -/
theorem stepAt_cons {rest : List (Segment α)}
    (stepped : stepAt input closed (segment :: rest) index move = some (after, later)) :
    (index = 0 ∧ ∃ next, segment.step input closed move = some (after, next) ∧
      later = next :: rest) ∨
    ∃ below out rest_, index = below + 1 ∧ after = input ∧
      stepAt segment.out segment.finished rest below move = some (out, rest_) ∧
        later = { segment with out := out } :: rest_ := by
  -- The first segment moves, or one further down.
  cases index with
  | zero =>
    simp only [stepAt, Option.bind_eq_bind, Option.bind_eq_some_iff] at stepped
    obtain ⟨⟨after_, next⟩, moved, same⟩ := stepped
    obtain ⟨rfl, rfl⟩ := Prod.mk.inj (Option.some.inj same)
    exact .inl ⟨rfl, next, moved, rfl⟩
  | succ below =>
    simp only [stepAt, Option.bind_eq_bind, Option.bind_eq_some_iff] at stepped
    obtain ⟨⟨out, rest_⟩, moved, same⟩ := stepped
    obtain ⟨rfl, rfl⟩ := Prod.mk.inj (Option.some.inj same)
    exact .inr ⟨below, out, rest_, rfl, rfl, moved, rfl⟩

/-- The loops stay what they are. -/
theorem stages_stepAt (stepped : stepAt input closed segments index move = some (after, later)) :
    later.map Segment.stage = segments.map Segment.stage := by
  -- By induction on the segments; a move changes what a segment holds, never its stage.
  induction segments generalizing input closed index after later with
  | nil => exact nomatch stepped
  | cons segment rest ih =>
    rcases stepAt_cons stepped with ⟨_, next, moved, rfl⟩ | ⟨_, out, rest_, _, _, moved, rfl⟩
    · cases moves_of_step moved with
      | read | write | eof => rfl
    · rw [List.map_cons, List.map_cons, ih moved]

/-- What is behind the input of the first loop is the last to come. -/
theorem content_append (tail : List α) :
    content (input ++ tail) segments = content input segments ++ tail := by
  -- By induction on the segments; what comes last in the input comes last in the content.
  induction segments generalizing input with
  | nil => rfl
  | cons segment rest ih =>
    rw [content, content, ← List.append_assoc segment.held, ← List.append_assoc segment.out, ih]

/-- What has not been read yet is on its way. -/
theorem mem_content {byte : α} (mem : byte ∈ input) : byte ∈ content input segments := by
  induction segments generalizing input with
  | nil => exact mem
  | cons segment rest ih => exact ih (by simp [mem])

/-- What is in a channel is on its way. -/
theorem mem_content_of_out {byte : α} {rest : List (Segment α)}
    (mem : byte ∈ content segment.out rest) : byte ∈ content input (segment :: rest) := by
  rw [content, content_append]
  exact List.mem_append_left _ mem

/-- Nothing on the way is lost, reordered or repeated, as long as all that is read is written. -/
theorem content_stepAt (clear : ∀ segment ∈ segments, ∀ chunk, (∀ byte ∈ chunk, good byte) →
      segment.stage.transform chunk = chunk)
    (fine : ∀ byte ∈ content input segments, good byte)
    (stepped : stepAt input closed segments index move = some (after, later)) :
    content after later = content input segments := by
  -- By induction on the segments, down to the one that moves.
  induction segments generalizing input closed index after later with
  | nil => exact nomatch stepped
  | cons segment rest ih =>
    rcases stepAt_cons stepped with ⟨_, next, moved, rfl⟩ | ⟨_, out, rest_, _, rfl, moved, rfl⟩
    · cases moves_of_step moved with
      | @read count empty going some_ fits there =>
        -- What is read comes from the content, and the stage leaves such elements as they are.
        have chunk : segment.stage.transform (input.take count) = input.take count := by
          apply clear segment List.mem_cons_self
          intro byte mem
          exact fine byte (mem_content (List.mem_of_mem_take mem))
        rw [content, content, chunk, empty, List.take_append_drop, List.nil_append]
      | write some_ there fits =>
        -- What is written goes from what is held to what lies in the pipe behind it.
        rw [content, content, List.append_assoc, ← List.append_assoc (segment.held.take _),
          List.take_append_drop]
      | eof empty going over_ ended => rfl
    -- A move further down takes from the pipe behind this segment.
    · have same := ih (fun segment mem => clear segment (List.mem_cons_of_mem _ mem))
        (fun byte mem => fine byte (mem_content_of_out mem)) moved
      rw [content, content, content_append, content_append, same]

/-- Behind a channel that is open no loop has finished, whatever comes next. -/
theorem sealed_of_open (closes : Sealed input false segments) : Sealed after closed segments := by
  -- The first segment has not finished, as its input is open.
  cases segments with
  | nil => trivial
  | cons segment rest =>
    refine ⟨fun finished => ?_, closes.2⟩
    exact nomatch (closes.1 finished).2.2

/-- A loop that has finished stays as it was when it did. -/
theorem sealed_stepAt (closes : Sealed input closed segments)
    (stepped : stepAt input closed segments index move = some (after, later)) :
    Sealed after closed later := by
  -- By induction on the segments, down to the one that moves.
  induction segments generalizing input closed index after later with
  | nil => exact nomatch stepped
  | cons segment rest ih =>
    obtain ⟨first, others⟩ := closes
    rcases stepAt_cons stepped with ⟨_, next, moved, rfl⟩ | ⟨_, out, rest_, _, rfl, moved, rfl⟩
    · cases moves_of_step moved with
      | read empty going some_ fits there =>
        -- A segment that reads is not finished.
        refine ⟨fun finished => ?_, others⟩
        rw [show segment.finished = true from finished] at going
        exact nomatch going
      | write some_ there fits =>
        -- A segment that writes holds something, so it is not finished either.
        have going : segment.finished = false := by
          cases finished : segment.finished with
          | false => rfl
          | true =>
            rw [(first finished).1, List.length_nil] at there
            omega
        rw [going] at others
        refine ⟨fun finished => ?_, sealed_of_open others⟩
        rw [show segment.finished = true from finished] at going
        exact nomatch going
      | eof empty going over_ ended =>
        rw [going] at others
        -- A segment finishes when it holds nothing and its input has ended.
        exact ⟨fun _ => ⟨empty, over_, ended⟩, sealed_of_open others⟩
    · exact ⟨first, ih others moved⟩

/-- When all loops have finished, everything is in the last channel. -/
theorem content_of_finished (closes : Sealed input closed segments)
    (finished : ∀ segment ∈ segments, segment.finished = true) :
    content input segments = output input segments := by
  -- By induction on the segments: a finished one holds nothing, and its input is empty.
  induction segments generalizing input closed with
  | nil => rfl
  | cons segment rest ih =>
    obtain ⟨empty, over_, _⟩ := closes.1 (finished segment List.mem_cons_self)
    rw [content, output, empty, over_, List.append_nil, List.append_nil]
    exact ih closes.2 fun other mem => finished other (List.mem_cons_of_mem _ mem)

/-- What is in the last channel is the beginning of all that is on its way. -/
theorem output_prefix : output input segments <+: content input segments := by
  -- By induction on the segments; what was written last comes first.
  induction segments generalizing input with
  | nil => exact List.prefix_rfl
  | cons segment rest ih =>
    rw [content, output, content_append]
    exact ih.trans (List.prefix_append _ _)

/-- Everything that the last loop has written or will write is of this kind. -/
def LastWrites (good : α → Prop) : List (Segment α) → Prop
  | [] => False
  | [segment] => (∀ byte ∈ segment.out, good byte) ∧ ∀ byte ∈ segment.held, good byte
  | _ :: next :: rest => LastWrites good (next :: rest)

/-- The last loop only makes what is of this kind. -/
def LastMakes (good : α → Prop) : List (Stage α) → Prop
  | [] => False
  | [stage] => ∀ chunk, ∀ byte ∈ stage.transform chunk, good byte
  | _ :: next :: rest => LastMakes good (next :: rest)

/-- Whatever is in the last channel has been written by the last loop. -/
theorem LastWrites.output (writes : LastWrites good segments) :
    ∀ byte ∈ output input segments, good byte := by
  -- By induction on the segments, to the last of which the output belongs.
  induction segments generalizing input with
  | nil => exact writes.elim
  | cons segment rest ih =>
    cases rest with
    | nil => exact writes.1
    | cons next rest => exact @ih segment.out writes

/-- The last loop goes on writing what it makes. -/
theorem LastWrites.stepAt (makes : LastMakes good (segments.map Segment.stage))
    (writes : LastWrites good segments)
    (stepped : stepAt input closed segments index move = some (after, later)) :
    LastWrites good later := by
  -- By induction on the segments; only what the last one holds and writes is spoken of.
  induction segments generalizing input closed index after later with
  | nil => exact nomatch stepped
  | cons segment rest ih =>
    rcases stepAt_cons stepped with ⟨_, next, moved, rfl⟩ | ⟨_, out, rest_, _, rfl, moved, rfl⟩
    · cases rest with
      | cons other others => exact writes
      | nil =>
        cases moves_of_step moved with
        -- What the last segment reads, its stage makes good.
        | read empty going some_ fits there => exact ⟨writes.1, makes _⟩
        -- What it writes was good when it was held.
        | write some_ there fits =>
          refine ⟨fun byte mem => ?_, fun byte mem => writes.2 byte (List.mem_of_mem_drop mem)⟩
          rcases List.mem_append.mp mem with old | new
          · exact writes.1 byte old
          · exact writes.2 byte (List.mem_of_mem_take new)
        | eof empty going over_ ended => exact writes
    · cases rest with
      | nil => exact nomatch moved
      | cons other others =>
        -- A segment that is not the last one changes nothing of it.
        have stays := ih makes writes moved
        cases rest_ with
        | nil => exact stays.elim
        | cons other_ others_ => exact stays

/-- Until all loops have finished, one of them can go on, or the first one waits for its input. -/
theorem progress (able : Able (segments.map Segment.stage))
    (closes : Sealed input closed segments) :
    (∃ index move next, stepAt input closed segments index move = some next) ∨
      (∀ segment ∈ segments, segment.finished = true) ∨ input = [] ∧ closed = false := by
  induction segments generalizing input closed with
  | nil => exact .inr (.inl fun _ mem => absurd mem List.not_mem_nil)
  | cons segment rest ih =>
    obtain ⟨size, room, last, others⟩ := able
    obtain ⟨first, below⟩ := closes
    -- It is enough that this loop can go on.
    have mine : (∃ move next, segment.step input closed move = some next) →
        ∃ index move next, stepAt input closed (segment :: rest) index move = some next := by
      rintro ⟨move, ⟨after, next⟩, stepped⟩
      exact ⟨0, move, (after, next :: rest), by rw [stepAt, stepped]; rfl⟩
    -- If the loops behind it wait for this one, it can write, read, or finish.
    have waits : segment.finished = false →
        (segment.out = [] ∨ segment.stage.room = none) →
          (∃ index move next, stepAt input closed (segment :: rest) index move = some next) ∨
            input = [] ∧ closed = false := by
      intro going space
      by_cases empty : segment.held = []
      · cases read : input with
        | cons byte bytes =>
          refine .inl (read ▸ mine ⟨.read 1, _, if_pos ⟨empty, going, one_pos, size, ?_⟩⟩)
          rw [read, List.length_cons]
          omega
        | nil =>
          cases ended : closed with
          | false => exact .inr ⟨rfl, rfl⟩
          | true =>
            rw [← read, ← ended]
            exact .inl (mine ⟨.eof, _, if_pos ⟨empty, going, read, ended⟩⟩)
      · refine .inl (mine ⟨.write 1, _, if_pos ⟨one_pos, List.length_pos_iff.mpr empty, ?_⟩⟩)
        intro bound there
        rcases space with free | unbounded
        · rw [free]
          have positive := room bound there
          simp only [List.length_nil]
          omega
        · rw [show segment.stage.room = none from unbounded] at there
          exact nomatch there
    rcases ih others below with ⟨index, move, ⟨out, rest_⟩, stepped⟩ | finished | ⟨empty, going⟩
    · refine .inl ⟨index + 1, move, (input, { segment with out := out } :: rest_), ?_⟩
      rw [stepAt, stepped]
      rfl
    · by_cases done : segment.finished = true
      · refine .inr (.inl fun other mem => ?_)
        rcases List.mem_cons.mp mem with rfl | there
        · exact done
        · exact finished other there
      · have going := Bool.eq_false_iff.mpr done
        -- No loop is behind this one, since it would not have finished.
        have none_ : rest = [] := by
          cases behind : rest with
          | nil => rfl
          | cons other others_ =>
            rw [behind] at below finished
            have ended := (below.1 (finished other List.mem_cons_self)).2.2
            exact absurd ended done
        rcases waits going (.inr (last (by rw [none_]; rfl))) with able | starved
        · exact .inl able
        · exact .inr (.inr starved)
    · rcases waits going (.inl empty) with able | starved
      · exact .inl able
      · exact .inr (.inr starved)

/-- What is added to the input has to be read and written by each loop. -/
theorem left_append (more : List α) :
    left (input ++ more) segments = left input segments + 2 * segments.length * more.length := by
  -- Each segment has each new element to read and to write.
  cases segments with
  | nil => simp [left]
  | cons segment rest =>
    rw [left, left, List.length_append, List.length_cons, Nat.mul_add]
    omega

/-- Every step leaves fewer to be taken, if no loop makes more of what it reads. -/
theorem left_stepAt (shrinks : ∀ segment ∈ segments, ∀ chunk,
      (segment.stage.transform chunk).length ≤ chunk.length)
    (stepped : stepAt input closed segments index move = some (after, later)) :
    left after later < left input segments := by
  induction segments generalizing input closed index after later with
  | nil => exact nomatch stepped
  | cons segment rest ih =>
    rcases stepAt_cons stepped with ⟨_, next, moved, rfl⟩ | ⟨_, out, rest_, _, rfl, moved, rfl⟩
    · rw [left, left]
      cases moves_of_step moved with
      | @read count empty going some_ fits there =>
        -- Each byte that is read has two channels less before it.
        have less := shrinks segment List.mem_cons_self (input.take count)
        rw [List.length_take_of_le there] at less
        have weighed := Nat.mul_le_mul_left (2 * rest.length + 1) less
        have split : 2 * (rest.length + 1) * input.length =
            2 * (rest.length + 1) * (input.length - count) + 2 * (rest.length + 1) * count := by
          rw [← Nat.mul_add, Nat.sub_add_cancel there]
        have more : (2 * rest.length + 1) * count < 2 * (rest.length + 1) * count :=
          Nat.mul_lt_mul_of_pos_right (by omega) some_
        rw [List.length_drop, empty, List.length_nil]
        simp only
        omega
      | @write count some_ there fits =>
        have split : (2 * rest.length + 1) * segment.held.length =
            (2 * rest.length + 1) * (segment.held.length - count) +
              (2 * rest.length + 1) * count := by
          rw [← Nat.mul_add, Nat.sub_add_cancel there]
        have written : (segment.held.take count).length = count := List.length_take_of_le there
        have less : 2 * rest.length * count < (2 * rest.length + 1) * count :=
          Nat.mul_lt_mul_of_pos_right (by omega) some_
        rw [left_append, written, List.length_drop]
        simp only
        omega
      | eof empty going over_ ended =>
        rw [going]
        simp only [Bool.false_eq_true, if_false, if_true]
        omega
    · have less := ih (fun segment mem => shrinks segment (List.mem_cons_of_mem _ mem)) moved
      have length : rest_.length = rest.length := by
        rw [← List.length_map (f := Segment.stage), stages_stepAt moved, List.length_map]
      rw [left, left, length]
      simp only
      omega

section Run

variable {stages : List (Stage α)} {actions : List (Nat × Move)} {state : State α}

/-- The loops that have just begun are these. -/
theorem stages_start (stages : List (Stage α)) :
    (stages.map Stage.start).map Segment.stage = stages := by
  rw [List.map_map]
  exact List.map_id stages

/-- No loop has finished before it begins. -/
theorem sealed_start (stages : List (Stage α)) (input : List α) (closed : Bool) :
    Sealed input closed (stages.map Stage.start) := by
  induction stages generalizing input closed with
  | nil => trivial
  | cons stage rest ih => exact ⟨nofun, ih _ _⟩

/-- Nothing is in the channels yet. -/
theorem content_start (stages : List (Stage α)) (input : List α) :
    content input (stages.map Stage.start) = input := by
  induction stages generalizing input with
  | nil => rfl
  | cons stage rest ih => exact ih input

/-- Every loop reads and writes all bytes, and finishes. -/
theorem left_start (stages : List (Stage α)) (input : List α) :
    left input (stages.map Stage.start) = stages.length * (2 * input.length + 1) := by
  -- By induction on the stages; each may read and write the whole input once, and see its end.
  induction stages generalizing input with
  | nil => simp [left]
  | cons stage rest ih =>
    rw [List.map_cons, left, List.length_map]
    show _ + _ * 0 + 1 + left [] (rest.map Stage.start) = _
    rw [ih, List.length_cons, List.length_nil]
    ring

/-- Nothing has been written yet. -/
theorem lastWrites_start (some_ : stages ≠ []) : LastWrites good (stages.map Stage.start) := by
  -- At the start nothing is held and nothing is in a pipe.
  induction stages with
  | nil => exact absurd rfl some_
  | cons stage rest ih =>
    cases rest with
    | nil =>
      exact ⟨fun _ mem => absurd mem List.not_mem_nil,
        fun _ mem => absurd mem List.not_mem_nil⟩
    | cons next rest => exact ih (List.cons_ne_nil _ _)

/-- A step of the machine is a step of one of the loops. -/
theorem step_eq_some {before : State α} {action : Nat × Move} :
    (machine α).step before action = some state ↔
      stepAt before.input true before.segments action.1 action.2 =
        some (state.input, state.segments) := by
  -- A step of the machine is a step of the segments, put back into the state.
  show (stepAt _ _ _ _ _).map _ = _ ↔ _
  rw [Option.map_eq_some_iff]
  constructor
  · rintro ⟨⟨input, segments⟩, stepped, rfl⟩
    exact stepped
  · intro stepped
    exact ⟨_, stepped, rfl⟩

/-- Along a run the loops stay what they are, and finish one after the other. -/
theorem sealed_of_run (ran : (machine α).run (initial stages input) actions = some state) :
    state.segments.map Segment.stage = stages ∧ Sealed state.input true state.segments := by
  -- The stages stay the same, and what is finished stays so.
  have preserved : ∀ before action after, before.segments.map Segment.stage = stages ∧
      Sealed before.input true before.segments → (machine α).step before action = some after →
        after.segments.map Segment.stage = stages ∧ Sealed after.input true after.segments := by
    intro before action after good stepped
    have stepped := step_eq_some.mp stepped
    exact ⟨(stages_stepAt stepped).trans good.1, sealed_stepAt good.2 stepped⟩
  exact Machine.run_invariant preserved ⟨stages_start stages, sealed_start stages _ _⟩ ran

/-- All that is on its way is the input, if the loops write what they read. -/
theorem content_of_run (clear : ∀ stage ∈ stages, ∀ chunk, (∀ byte ∈ chunk, good byte) →
      stage.transform chunk = chunk) (fine : ∀ byte ∈ input, good byte)
    (ran : (machine α).run (initial stages input) actions = some state) :
    content state.input state.segments = input := by
  -- A step keeps the content, since the content consists of good elements throughout.
  have preserved : ∀ before action after, before.segments.map Segment.stage = stages ∧
      content before.input before.segments = input → (machine α).step before action = some after →
        after.segments.map Segment.stage = stages ∧
          content after.input after.segments = input := by
    intro before action after good_ stepped
    have stepped := step_eq_some.mp stepped
    refine ⟨(stages_stepAt stepped).trans good_.1, ?_⟩
    have clear_ : ∀ segment ∈ before.segments, ∀ chunk, (∀ byte ∈ chunk, good byte) →
        segment.stage.transform chunk = chunk := by
      intro segment mem chunk
      exact clear segment.stage (good_.1 ▸ List.mem_map_of_mem mem) chunk
    rw [content_stepAt clear_ ?_ stepped]
    · exact good_.2
    · rw [good_.2]
      exact fine
  exact (Machine.run_invariant preserved ⟨stages_start stages, content_start stages input⟩ ran).2

/-- Only what the last loop makes gets into the last channel. -/
theorem output_of_run (makes : LastMakes good stages)
    (ran : (machine α).run (initial stages input) actions = some state) :
    ∀ byte ∈ output state.input state.segments, good byte := by
  -- Without a stage there would be nothing that makes the output good.
  have some_ : stages ≠ [] := by
    rintro rfl
    exact makes
  -- A step keeps what the last segment has written good.
  have preserved : ∀ before action after, before.segments.map Segment.stage = stages ∧
      LastWrites good before.segments → (machine α).step before action = some after →
        after.segments.map Segment.stage = stages ∧ LastWrites good after.segments := by
    intro before action after good_ stepped
    have stepped := step_eq_some.mp stepped
    exact ⟨(stages_stepAt stepped).trans good_.1, good_.2.stepAt (good_.1 ▸ makes) stepped⟩
  exact (Machine.run_invariant preserved
    ⟨stages_start stages, lastWrites_start some_⟩ ran).2.output

/-- Until all loops have finished, one of them can go on. -/
theorem progress_of_run (able : Able stages)
    (ran : (machine α).run (initial stages input) actions = some state) :
    (∀ segment ∈ state.segments, segment.finished = true) ∨
      ∃ action next, (machine α).step state action = some next := by
  -- The state is sealed and has the stages it started with.
  obtain ⟨same, closes⟩ := sealed_of_run ran
  rcases progress (same ▸ able) closes with ⟨index, move, next, stepped⟩ | finished | ⟨_, going⟩
  · exact .inr ⟨(index, move), ⟨next.1, next.2⟩, step_eq_some.mpr stepped⟩
  · exact .inl finished
  -- The input of the first segment is closed from the start.
  · exact nomatch going

/-- There is an end to every run. -/
theorem length_of_run (shrinks : ∀ stage ∈ stages, ∀ chunk,
      (stage.transform chunk).length ≤ chunk.length)
    (ran : (machine α).run (initial stages input) actions = some state) :
    actions.length ≤ stages.length * (2 * input.length + 1) := by
  -- Every step lowers what is left to do, given that no stage makes more than it reads.
  have preserved : ∀ before action after, before.segments.map Segment.stage = stages →
      (machine α).step before action = some after → after.segments.map Segment.stage = stages := by
    intro before action after same stepped
    exact (stages_stepAt (step_eq_some.mp stepped)).trans same
  have lowered : ∀ before action after, before.segments.map Segment.stage = stages →
      (machine α).step before action = some after →
        left after.input after.segments < left before.input before.segments := by
    intro before action after same stepped
    refine left_stepAt ?_ (step_eq_some.mp stepped)
    intro segment mem chunk
    exact shrinks segment.stage (same ▸ List.mem_map_of_mem mem) chunk
  have bound := Machine.run_length_le preserved lowered (stages_start stages) ran
  -- At the start as much is left as the bound says.
  have start : left (initial stages input).input (initial stages input).segments =
      stages.length * (2 * input.length + 1) := left_start stages input
  omega

end Run

end Pipeline

end SysProg
