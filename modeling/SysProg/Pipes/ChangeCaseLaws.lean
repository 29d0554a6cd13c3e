import SysProg.Pipes.ChangeCase

/-! The text comes back in whole as long as the buffer is not larger than `PIPE_BUF`. -/

namespace SysProg.Pipes.ChangeCase

variable {bufSize : Nat} {limits : PipeLimits} {text : List UInt8} {state next : State}

/-- Where the bytes are that have been read and not been printed. -/
inductive Holds (bufSize : Nat) : State → List UInt8 → Prop where
  | idle {stdin stdout : List UInt8} :
    Holds bufSize ⟨.readStdin, .read, stdin, [], [], stdout⟩ []
  | parent {chunk stdin stdout : List UInt8} (some_ : chunk ≠ []) (fits : chunk.length ≤ bufSize) :
    Holds bufSize ⟨.write chunk, .read, stdin, [], [], stdout⟩ (chunk.map toupper)
  | outbound {chunk stdin stdout : List UInt8} (some_ : chunk ≠ [])
    (fits : chunk.length ≤ bufSize) :
    Holds bufSize ⟨.read, .read, stdin, chunk, [], stdout⟩ (chunk.map toupper)
  | child {chunk stdin stdout : List UInt8} (some_ : chunk ≠ []) (fits : chunk.length ≤ bufSize) :
    Holds bufSize ⟨.read, .write chunk, stdin, [], [], stdout⟩ chunk
  | inbound {chunk stdin stdout : List UInt8} (some_ : chunk ≠ [])
    (fits : chunk.length ≤ bufSize) :
    Holds bufSize ⟨.read, .read, stdin, [], chunk, stdout⟩ chunk
  | printing {chunk stdin stdout : List UInt8} :
    Holds bufSize ⟨.print chunk, .read, stdin, [], [], stdout⟩ chunk
  | exited {stdout : List UInt8} : Holds bufSize ⟨.exited, .read, [], [], [], stdout⟩ []
  | both {stdout : List UInt8} : Holds bufSize ⟨.exited, .exited, [], [], [], stdout⟩ []

/-- At any time, all bytes are printed, on their way, or still to be read. -/
def Sound (bufSize : Nat) (text : List UInt8) (state : State) : Prop :=
  ∃ chunk, Holds bufSize state chunk ∧
    state.stdout ++ (chunk ++ state.stdin.map toupper) = text.map toupper

/-- A chunk that is not larger than `PIPE_BUF` is written to an empty pipe at once. -/
theorem writePipe_nil {chunk : List UInt8} {count : Nat} (fits : chunk.length ≤ limits.pipeBuf) :
    writePipe limits [] chunk count = some (chunk, []) := by
  -- A chunk of at most PIPE_BUF bytes is written whole, and the empty pipe has room for it.
  have room : ([] : List UInt8).length + chunk.length ≤ limits.capacity := by
    have capacity := limits.fits
    simp only [List.length_nil]
    omega
  rw [writePipe, if_pos fits, if_pos room, List.nil_append]

/-- A step of the parent keeps all bytes. -/
theorem Sound.parent {count : Nat} (within : bufSize ≤ limits.pipeBuf)
    (sound : Sound bufSize text state)
    (stepped : parentStep bufSize limits state count = some next) : Sound bufSize text next := by
  obtain ⟨chunk, holds, all⟩ := sound
  -- The parent reads its input, writes to the pipe, reads the answer, and prints it.
  cases holds with
  | @idle stdin stdout =>
    simp only [parentStep] at stepped
    split at stepped
    -- At the end of the input the parent closes the pipe and exits.
    next none_ =>
      obtain rfl := Option.some.inj stepped
      subst none_
      exact ⟨[], .exited, all⟩
    · split at stepped
      next able =>
        obtain rfl := Option.some.inj stepped
        -- What is read is on its way, and will come back in upper case.
        have length : (stdin.take count).length = count := List.length_take_of_le able.2.2
        refine ⟨_, .parent ?_ (length.trans_le able.2.1), ?_⟩
        · intro none_
          rw [none_, List.length_nil] at length
          omega
        · show stdout ++ ((stdin.take count).map toupper ++ (stdin.drop count).map toupper) = _
          rw [← List.map_append, List.take_append_drop]
          exact all
      · exact nomatch stepped
  | parent some_ fits =>
    simp only [parentStep, writePipe_nil (fits.trans within)] at stepped
    obtain rfl := Option.some.inj stepped
    exact ⟨_, .outbound some_ fits, all⟩
  | outbound some_ fits => simp [parentStep] at stepped
  | child some_ fits => simp [parentStep] at stepped
  | @inbound chunk stdin stdout some_ fits =>
    simp only [parentStep, ne_eq, some_, not_false_eq_true, if_true] at stepped
    obtain rfl := Option.some.inj stepped
    -- The answer is no longer than the buffer, so one read() takes it whole.
    rw [List.take_of_length_le fits, List.drop_of_length_le fits]
    exact ⟨_, .printing, all⟩
  | @printing chunk stdin stdout =>
    obtain rfl := Option.some.inj stepped
    refine ⟨[], .idle, ?_⟩
    show (stdout ++ chunk) ++ ([] ++ stdin.map toupper) = _
    rw [List.append_assoc]
    exact all
  | exited => exact nomatch stepped
  | both => exact nomatch stepped

/-- A step of the child keeps all bytes. -/
theorem Sound.child {count : Nat} (within : bufSize ≤ limits.pipeBuf)
    (sound : Sound bufSize text state)
    (stepped : childStep bufSize limits state count = some next) : Sound bufSize text next := by
  obtain ⟨chunk, holds, all⟩ := sound
  -- The child reads from the one pipe and writes to the other one.
  cases holds with
  | idle => simp [childStep] at stepped
  | parent some_ fits => simp [childStep] at stepped
  | @outbound chunk stdin stdout some_ fits =>
    simp only [childStep, ne_eq, some_, not_false_eq_true, if_true] at stepped
    obtain rfl := Option.some.inj stepped
    -- What comes is no longer than the buffer, so one read() takes it whole.
    rw [List.take_of_length_le fits, List.drop_of_length_le fits]
    refine ⟨_, .child ?_ ?_, all⟩
    · rwa [ne_eq, List.map_eq_nil_iff]
    · rwa [List.length_map]
  | child some_ fits =>
    simp only [childStep, writePipe_nil (fits.trans within)] at stepped
    obtain rfl := Option.some.inj stepped
    exact ⟨_, .inbound some_ fits, all⟩
  | inbound some_ fits => simp [childStep] at stepped
  | printing => simp [childStep] at stepped
  | exited =>
    simp only [childStep, ne_eq, not_true_eq_false, if_false, if_true] at stepped
    obtain rfl := Option.some.inj stepped
    exact ⟨_, .both, all⟩
  | both => exact nomatch stepped

/-- How many steps are left, at most. -/
def left (state : State) : Nat :=
  6 * state.stdin.length +
    match state.parent, state.child with
    | .readStdin, _ => 2
    | .write _, _ => 7
    | .read, .write _ => 5
    | .read, _ => if state.inbound = [] then 6 else 4
    | .print _, _ => 3
    | .exited, .read => 1
    | .exited, _ => 0

/-- Every step leaves fewer to be taken. -/
theorem Sound.left_lt {action : Action} (within : bufSize ≤ limits.pipeBuf)
    (sound : Sound bufSize text state)
    (stepped : (machine bufSize limits).step state action = some next) :
    left next < left state := by
  obtain ⟨chunk, holds, _⟩ := sound
  -- Each step of either process brings the text one stage further.
  cases action with
  | parent count =>
    replace stepped : parentStep bufSize limits state count = some next := stepped
    cases holds with
    | @idle stdin stdout =>
      simp only [parentStep] at stepped
      split at stepped
      next none_ =>
        obtain rfl := Option.some.inj stepped
        simp [left]
      · split at stepped
        next able =>
          obtain rfl := Option.some.inj stepped
          simp only [left, List.length_drop]
          omega
        · exact nomatch stepped
    | parent some_ fits =>
      simp only [parentStep, writePipe_nil (fits.trans within)] at stepped
      obtain rfl := Option.some.inj stepped
      simp [left]
    | outbound some_ fits => simp [parentStep] at stepped
    | child some_ fits => simp [parentStep] at stepped
    | inbound some_ fits =>
      simp only [parentStep, ne_eq, some_, not_false_eq_true, if_true] at stepped
      obtain rfl := Option.some.inj stepped
      simp [left, some_]
    | printing =>
      obtain rfl := Option.some.inj stepped
      simp [left]
    | exited => exact nomatch stepped
    | both => exact nomatch stepped
  | child count =>
    replace stepped : childStep bufSize limits state count = some next := stepped
    cases holds with
    | idle => simp [childStep] at stepped
    | parent some_ fits => simp [childStep] at stepped
    | outbound some_ fits =>
      simp only [childStep, ne_eq, some_, not_false_eq_true, if_true] at stepped
      obtain rfl := Option.some.inj stepped
      simp [left]
    | child some_ fits =>
      simp only [childStep, writePipe_nil (fits.trans within)] at stepped
      obtain rfl := Option.some.inj stepped
      simp [left, some_]
    | inbound some_ fits => simp [childStep] at stepped
    | printing => simp [childStep] at stepped
    | exited =>
      simp only [childStep, ne_eq, not_true_eq_false, if_false, if_true] at stepped
      obtain rfl := Option.some.inj stepped
      simp [left]
    | both => exact nomatch stepped

/-- As long as a process has not exited, one of them can go on. -/
theorem Sound.progress (some_ : 0 < bufSize) (within : bufSize ≤ limits.pipeBuf)
    (sound : Sound bufSize text state) :
    state = ⟨.exited, .exited, [], [], [], text.map toupper⟩ ∨
      ∃ action next, (machine bufSize limits).step state action = some next := by
  obtain ⟨chunk, holds, all⟩ := sound
  -- It is enough that one of the processes can take a step with some number.
  have parent : ∀ count, (parentStep bufSize limits state count).isSome →
      ∃ action next, (machine bufSize limits).step state action = some next := by
    intro count able
    exact ⟨.parent count, Option.isSome_iff_exists.mp able⟩
  have child : ∀ count, (childStep bufSize limits state count).isSome →
      ∃ action next, (machine bufSize limits).step state action = some next := by
    intro count able
    exact ⟨.child count, Option.isSome_iff_exists.mp able⟩
  cases holds with
  | @idle stdin stdout =>
    refine .inr (parent 1 ?_)
    cases stdin with
    | nil => simp [parentStep]
    | cons byte rest =>
      have able : 1 ≤ bufSize := some_
      simp [parentStep, able]
  | parent nonempty fits =>
    exact .inr (parent 1 (by simp [parentStep, writePipe_nil (fits.trans within)]))
  | outbound nonempty fits => exact .inr (child 1 (by simp [childStep, nonempty]))
  | child nonempty fits =>
    exact .inr (child 1 (by simp [childStep, writePipe_nil (fits.trans within)]))
  | inbound nonempty fits => exact .inr (parent 1 (by simp [parentStep, nonempty]))
  | printing => exact .inr (parent 1 (by simp [parentStep]))
  | exited => exact .inr (child 1 (by simp [childStep]))
  | @both stdout =>
    left
    have printed : stdout = text.map toupper := by simpa using all
    rw [printed]

/-- Whatever the order of the steps, the whole text is printed in upper case. -/
theorem change_case_upper (bufSize : Nat) (limits : PipeLimits) (some_ : 0 < bufSize)
    (within : bufSize ≤ limits.pipeBuf) (text : List UInt8) (actions : List Action) (state : State)
    (ran : (machine bufSize limits).run (initial text) actions = some state) :
    state.stdout <+: text.map toupper ∧ actions.length ≤ 6 * text.length + 2 ∧
      (state = ⟨.exited, .exited, [], [], [], text.map toupper⟩ ∨
        ∃ action next, (machine bufSize limits).step state action = some next) := by
  -- The invariant holds along the run, whoever steps.
  have preserved : ∀ before action after, Sound bufSize text before →
      (machine bufSize limits).step before action = some after → Sound bufSize text after := by
    intro before action after sound stepped
    cases action with
    | parent count => exact sound.parent within stepped
    | child count => exact sound.child within stepped
  have start : Sound bufSize text (initial text) := ⟨[], .idle, rfl⟩
  have sound := Machine.run_invariant preserved start ran
  refine ⟨?_, ?_, sound.progress some_ within⟩
  · obtain ⟨chunk, _, all⟩ := sound
    exact ⟨_, all⟩
  -- Every step lowers what is left.
  · have lowered : ∀ before action after, Sound bufSize text before →
        (machine bufSize limits).step before action = some after → left after < left before := by
      intro before action after sound stepped
      exact sound.left_lt within stepped
    have bound := Machine.run_length_le preserved lowered start ran
    have whole : left (initial text) = 6 * text.length + 2 := rfl
    omega

/-- Two of three bytes have gone around, and the third one is in the first pipe. -/
def twoOfThree : List Action :=
  [.parent 2, .parent 0, .child 0, .child 0, .parent 0, .parent 0, .parent 1, .parent 0]

/-- The program's buffer is not larger than what POSIX requires of `PIPE_BUF`. -/
theorem change_case_upper_program : ∃ state,
    (machine 100 ⟨512, 512, le_rfl⟩).run (initial [104, 105, 106]) twoOfThree = some state ∧
      state.stdout = [72, 73] ∧ state.stdout <+: [104, 105, 106].map toupper ∧
      ∃ action next, (machine 100 ⟨512, 512, le_rfl⟩).step state action = some next := by
  obtain ⟨state, ran, printed⟩ : ∃ state,
      (machine 100 ⟨512, 512, le_rfl⟩).run (initial [104, 105, 106]) twoOfThree = some state ∧
      state.stdout = [72, 73] := ⟨_, rfl, rfl⟩
  obtain ⟨upper, _, ended | goesOn⟩ :=
    change_case_upper 100 ⟨512, 512, le_rfl⟩ (by decide) (by decide) _ twoOfThree state ran
  · -- At the end all three bytes would have been printed.
    rw [ended] at printed
    cases printed
  · exact ⟨state, ran, printed, upper, goesOn⟩

/-- With a larger buffer a part of the text can be lost, when the parent exits too early. -/
theorem not_upper_of_large : ∃ actions state,
    (machine 2 ⟨1, 1, le_rfl⟩).run (initial [97, 98]) actions = some state ∧
      state.parent = .exited ∧ state.child = .killed ∧ state.stdout = [65] :=
  ⟨[.parent 2, .parent 1, .child 0, .child 0, .parent 1, .parent 0, .parent 0, .parent 0, .child 0,
    .child 0], _, rfl, by decide⟩

end SysProg.Pipes.ChangeCase
