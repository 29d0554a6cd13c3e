import SysProg.Sockets.Sendfile
import SysProg.Sockets.SendfileTurns

/-! What `sendfile` copies, and when it leaves the file offset as it was. -/

namespace SysProg.Sockets.Sendfile

/-- Where the copy starts. -/
def Setup.startPos (setup : Setup) : Nat :=
  match setup.offset with
  | none => setup.pos
  | some offset => offset.toNat

/-- What each `read` has brought that has brought something. -/
def reads (actions : List Action) : List Nat :=
  actions.filterMap fun
    | .read (numRead + 1) => some (numRead + 1)
    | _ => none

/-- What each `write` has accepted that has accepted something. -/
def sents (actions : List Action) : List Nat :=
  actions.filterMap fun
    | .write (numSent + 1) => some (numSent + 1)
    | _ => none

/-- A `read` or a `write` has failed. -/
def Failed (actions : List Action) : Prop :=
  .readFails ∈ actions ∨ .writeFails ∈ actions

instance (actions : List Action) : Decidable (Failed actions) :=
  inferInstanceAs (Decidable (_ ∨ _))

theorem reads_append (front back : List Action) :
    reads (front ++ back) = reads front ++ reads back :=
  List.filterMap_append

theorem sents_append (front back : List Action) :
    sents (front ++ back) = sents front ++ sents back :=
  List.filterMap_append

/-- A failure comes before some moment or after it. -/
theorem failed_append {front back : List Action} :
    Failed (front ++ back) ↔ Failed front ∨ Failed back := by
  simp only [Failed, List.mem_append]
  tauto

/-- A file offset that has been set is not negative. -/
def Setup.Valid (setup : Setup) : Prop :=
  ∀ offset ∈ setup.offset, (setup.startPos : Int) = offset

/-- What is known between two turns of the loop. -/
structure Between (setup : Setup) (past : List Action) (turns : List (Nat × Nat))
    (state : State) : Prop where
  bounded : Bounded turns
  /-- No `read` goes beyond the end of the file. -/
  inside : turns ≠ [] → setup.startPos + (turns.map Prod.fst).sum ≤ setup.file.length
  sents_eq : sents past = turns.map Prod.snd
  totSent_eq : state.totSent = (turns.map Prod.snd).sum
  out_eq : state.out = copied setup.file setup.startPos turns
  orig_eq : setup.offset.isSome → state.orig = setup.pos
  valid : setup.Valid
  clean : ¬ Failed past

/-- Nothing has failed either after a statement that does not fail. -/
theorem Between.clean_append {setup : Setup} {past : List Action} {turns : List (Nat × Nat)}
    {state : State} {action : Action} (between : Between setup past turns state)
    (noFailure : ¬ Failed [action]) : ¬ Failed (past ++ [action]) := by
  rw [failed_append]
  exact fun failed => failed.elim between.clean noFailure

/-- Other statements than `read` and `write` leave that as it is. -/
theorem Between.other {setup : Setup} {past : List Action} {turns : List (Nat × Nat)}
    {state next : State} {action : Action} (between : Between setup past turns state)
    (noWrite : sents [action] = []) (noFailure : ¬ Failed [action])
    (totSent : next.totSent = state.totSent) (out : next.out = state.out)
    (orig : next.orig = state.orig) : Between setup (past ++ [action]) turns next where
  -- No byte is written and nothing fails, so all counts stay.
  bounded := between.bounded
  inside := between.inside
  sents_eq := by rw [sents_append, noWrite, List.append_nil, between.sents_eq]
  totSent_eq := totSent.trans between.totSent_eq
  out_eq := out.trans between.out_eq
  orig_eq given := orig.trans (between.orig_eq given)
  valid := between.valid
  clean := between.clean_append noFailure

/-- Where the file offset is when some bytes have been read. -/
def State.Advanced (setup : Setup) (past : List Action) (state : State) : Prop :=
  state.pos = setup.startPos + (reads past).sum

/-- Nothing is read by other statements than `read`. -/
theorem reads_other {past : List Action} {action : Action} (noRead : reads [action] = []) :
    reads (past ++ [action]) = reads past := by
  rw [reads_append, noRead, List.append_nil]

/-- Statements that read nothing leave the file offset where it is. -/
theorem State.Advanced.other {setup : Setup} {past : List Action} {state next : State}
    {action : Action} (advanced : state.Advanced setup past) (noRead : reads [action] = [])
    (pos : next.pos = state.pos) : next.Advanced setup (past ++ [action]) := by
  rw [State.Advanced, reads_other noRead, pos]
  exact advanced

/-- A turn ends with a `write`. -/
theorem Between.wrote {setup : Setup} {past : List Action} {turns : List (Nat × Nat)}
    {state next : State} {numRead numSent : Nat} (between : Between setup past turns state)
    (some_ : 0 < numSent) (fits : numSent ≤ numRead)
    (inside : setup.startPos + (turns.map Prod.fst).sum + numRead ≤ setup.file.length)
    (totSent : next.totSent = state.totSent + numSent)
    (out : next.out = state.out ++
      ((setup.file.drop (setup.startPos + (turns.map Prod.fst).sum)).take numRead).take numSent)
    (orig : next.orig = state.orig) :
    Between setup (past ++ [.write numSent]) (turns ++ [(numRead, numSent)]) next where
  -- The last turn is the one in which bytes were written, and those before are as they were.
  bounded turn mem := by
    obtain earlier | rfl := List.mem_append.mp mem |>.imp_right List.mem_singleton.mp
    · exact between.bounded turn earlier
    · exact ⟨some_, fits⟩
  inside _ := by
    rw [List.map_append, List.sum_append, ← Nat.add_assoc]
    exact inside
  -- What was written is at least one byte, so it counts.
  sents_eq := by
    obtain ⟨less, rfl⟩ := Nat.exists_eq_add_one.mpr some_
    rw [sents_append, between.sents_eq, List.map_append]
    rfl
  totSent_eq := by
    rw [totSent, between.totSent_eq, List.map_append, List.sum_append]
    rfl
  out_eq := by
    rw [out, between.out_eq, copied_append, copied, copied, List.append_nil]
  orig_eq given := orig.trans (between.orig_eq given)
  valid := between.valid
  clean := between.clean_append (by simp [Failed])

/-- What `sendfile` has done when it is somewhere. -/
def Invariant (setup : Setup) (past : List Action) (state : State) : Prop :=
  match state.pc with
  | .start => past = [] ∧ state = initial setup
  | .saveOrig =>
    past = [.test] ∧ setup.offset.isSome ∧ state = { initial setup with pc := .saveOrig }
  | .setOffset =>
    past = [.test, .lseek true] ∧ setup.offset.isSome ∧
      state = { initial setup with pc := .setOffset, orig := setup.pos }
  | .loop | .read | .finish =>
    ∃ turns, Between setup past turns state ∧ reads past = turns.map Prod.fst ∧
      state.Advanced setup past ∧ state.offset = setup.offset
  | .write =>
    ∃ turns numRead, Between setup past turns state ∧
      reads past = turns.map Prod.fst ++ [numRead] ∧ state.Advanced setup past ∧
      state.offset = setup.offset ∧ state.pos ≤ setup.file.length ∧
      state.buf = (setup.file.drop (setup.startPos + (turns.map Prod.fst).sum)).take numRead
  | .getOffset =>
    ∃ turns, Between setup past turns state ∧ reads past = turns.map Prod.fst ∧
      state.Advanced setup past ∧ setup.offset.isSome
  | .restore =>
    ∃ turns, Between setup past turns state ∧ reads past = turns.map Prod.fst ∧
      setup.offset.isSome ∧ state.offset = some ((setup.startPos + (reads past).sum : Nat) : Int)
  | .returned value =>
    (Failed past → value = -1 ∧ state.Advanced setup past ∧ setup.Valid) ∧
      (value ≠ -1 → value = state.totSent ∧
        ∃ turns, Between setup past turns state ∧ reads past = turns.map Prod.fst ∧
          (setup.offset.isSome → state.pos = setup.pos ∧
            state.offset = some ((setup.startPos + (reads past).sum : Nat) : Int)))
  | .fatal => ¬ Failed past

/-- `sendfile` may return `-1` when the file offset is as far as it was read. -/
theorem Invariant.fails {setup : Setup} {past : List Action} {next : State}
    (at_ : next.pc = .returned (-1))
    (advanced : Failed past → next.Advanced setup past ∧ setup.Valid) :
    Invariant setup past next := by
  -- -1 was returned, and all else is said only of a result that is not -1.
  simp only [Invariant, at_, true_and]
  exact ⟨advanced, fun valid => absurd rfl valid⟩

/-- The statements before the loop keep the invariant. -/
theorem Invariant.step_before {setup : Setup} {past : List Action} {state next : State}
    {action : Action} (invariant : Invariant setup past state)
    (before : state.pc = .start ∨ state.pc = .saveOrig ∨ state.pc = .setOffset)
    (stepped : step setup.file state action = some next) :
    Invariant setup (past ++ [action]) next := by
  -- No turn of the loop has been made.
  have untouched : ∀ past, reads past = [] → sents past = [] → ¬ Failed past →
      ∀ next : State, next.pc = .loop → next.totSent = 0 → next.out = [] →
        (setup.offset.isSome → next.orig = setup.pos) → setup.Valid →
          next.pos = setup.startPos → next.offset = setup.offset → Invariant setup past next := by
    intro past noReads noSents clean next at_ totSent out orig start pos offset
    simp only [Invariant, at_]
    refine ⟨[], ⟨nofun, nofun, noSents, totSent, out, orig, start, clean⟩, noReads, ?_, offset⟩
    rw [State.Advanced, noReads]
    exact pos
  obtain at_ | at_ | at_ := before <;> simp only [Invariant, at_] at invariant
  · -- The first test of `offset`.
    obtain ⟨rfl, rfl⟩ := invariant
    cases action with
    | test =>
      obtain rfl := Option.some.inj stepped
      -- Without an offset the loop comes next, and otherwise the first `lseek`.
      cases given : setup.offset with
      | none =>
        refine untouched _ rfl rfl (by decide) _ ?_ rfl rfl ?_ ?_ ?_ rfl
        · simp [initial, given]
        · simp [given]
        · simp [Setup.Valid, given]
        · simp [initial, Setup.startPos, given]
      | some offset => simp [Invariant, initial, given]
    | _ => exact nomatch stepped
  · -- The file offset is saved.
    obtain ⟨rfl, given, rfl⟩ := invariant
    cases action with
    | lseek succeeds =>
      cases succeeds with
      | false =>
        obtain rfl := Option.some.inj stepped
        exact Invariant.fails rfl fun failed => absurd failed (by decide)
      | true =>
        obtain rfl := Option.some.inj stepped
        exact ⟨rfl, given, rfl⟩
    | _ => exact nomatch stepped
  · -- The file offset is set.
    obtain ⟨rfl, given, rfl⟩ := invariant
    obtain ⟨offset, given⟩ := Option.isSome_iff_exists.mp given
    cases action with
    | lseek succeeds =>
      simp only [Sendfile.step, initial, given] at stepped
      cases succeeds with
      | false =>
        obtain rfl := Option.some.inj stepped
        exact Invariant.fails rfl fun failed => absurd failed (by decide)
      | true =>
        -- An offset that is set is not negative, and it is where the copy starts.
        cases offset with
        | negSucc offset => exact nomatch stepped
        | ofNat offset =>
          obtain rfl := Option.some.inj stepped
          have start : setup.startPos = offset := by rw [Setup.startPos, given]; rfl
          refine untouched _ rfl rfl (by decide) _ rfl rfl rfl (fun _ => rfl) ?_ start.symm
            given.symm
          intro other mem
          rw [given, Option.mem_some_iff] at mem
          rw [start, ← mem]
          rfl
    | _ => exact nomatch stepped

/-- The statements of the loop keep the invariant. -/
theorem Invariant.step_loop {setup : Setup} {past : List Action} {state next : State}
    {action : Action} (invariant : Invariant setup past state)
    (inLoop : state.pc = .loop ∨ state.pc = .read ∨ state.pc = .write)
    (stepped : step setup.file state action = some next) :
    Invariant setup (past ++ [action]) next := by
  obtain at_ | at_ | at_ := inLoop <;> simp only [Invariant, at_] at invariant
  · -- The test of `count`.
    obtain ⟨turns, between, reads_, advanced, offset⟩ := invariant
    cases action with
    | test =>
      simp only [Sendfile.step, at_, Option.some.injEq] at stepped
      obtain rfl := stepped
      by_cases more : state.count > 0
      · simp only [if_pos more]
        exact ⟨turns, between.other rfl (by decide) rfl rfl rfl, (reads_other rfl).trans reads_,
          advanced.other rfl rfl, offset⟩
      · simp only [if_neg more]
        exact ⟨turns, between.other rfl (by decide) rfl rfl rfl, (reads_other rfl).trans reads_,
          advanced.other rfl rfl, offset⟩
    | _ => simp [Sendfile.step, at_] at stepped
  · -- Some bytes are read.
    obtain ⟨turns, between, reads_, advanced, offset⟩ := invariant
    cases action with
    | read numRead =>
      simp only [Sendfile.step, at_] at stepped
      by_cases readable : state.Readable setup.file numRead
      · rw [if_pos readable] at stepped
        cases numRead with
        -- The end of the file ends the loop.
        | zero =>
          obtain rfl := Option.some.inj stepped
          exact ⟨turns, between.other rfl (by decide) rfl rfl rfl, (reads_other rfl).trans reads_,
            advanced.other rfl rfl, offset⟩
        -- The turn is half done: the bytes are in the buffer.
        | succ numRead =>
          obtain rfl := Option.some.inj stepped
          refine ⟨turns, numRead + 1, between.other rfl (by simp [Failed]) rfl rfl rfl, ?_, ?_,
            offset, ?_, ?_⟩
          · rw [reads_append, reads_]
            rfl
          · have further := congrArg (· + (numRead + 1)) advanced
            rw [State.Advanced, reads_append, List.sum_append]
            exact further.trans (Nat.add_assoc _ _ _)
          · have := readable.2.1
            show state.pos + (numRead + 1) ≤ _
            omega
          · rw [← reads_, ← advanced]
      · rw [if_neg readable] at stepped
        exact nomatch stepped
    | readFails =>
      simp only [Sendfile.step, at_, Option.some.injEq] at stepped
      obtain rfl := stepped
      exact Invariant.fails rfl fun _ => ⟨advanced.other rfl rfl, between.valid⟩
    | _ => simp [Sendfile.step, at_] at stepped
  · -- Some of them are written.
    obtain ⟨turns, numRead, between, reads_, advanced, offset, inside, buf⟩ := invariant
    have pos : state.pos = setup.startPos + (turns.map Prod.fst).sum + numRead := by
      rw [advanced, reads_, List.sum_append, ← Nat.add_assoc]
      rfl
    cases action with
    | write numSent =>
      simp only [Sendfile.step, at_] at stepped
      by_cases fits : numSent ≤ state.buf.length
      · rw [if_pos fits] at stepped
        rw [buf, List.length_take] at fits
        cases numSent with
        | zero =>
          obtain rfl := Option.some.inj stepped
          exact between.clean_append (by decide)
        -- The turn is done, with as many bytes as `write` has accepted.
        | succ numSent =>
          obtain rfl := Option.some.inj stepped
          refine ⟨turns ++ [(numRead, numSent + 1)], between.wrote (by omega) (by omega) (by omega)
            rfl ?_ rfl, ?_, advanced.other rfl rfl, offset⟩
          · rw [← buf]
          · rw [reads_other rfl, reads_, List.map_append]
            rfl
      · rw [if_neg fits] at stepped
        exact nomatch stepped
    | writeFails =>
      simp only [Sendfile.step, at_, Option.some.injEq] at stepped
      obtain rfl := stepped
      exact Invariant.fails rfl fun _ => ⟨advanced.other rfl rfl, between.valid⟩
    | _ => simp [Sendfile.step, at_] at stepped

/-- The statements after the loop keep the invariant. -/
theorem Invariant.step_after {setup : Setup} {past : List Action} {state next : State}
    {action : Action} (invariant : Invariant setup past state)
    (after : state.pc = .finish ∨ state.pc = .getOffset ∨ state.pc = .restore)
    (stepped : step setup.file state action = some next) :
    Invariant setup (past ++ [action]) next := by
  obtain at_ | at_ | at_ := after <;> simp only [Invariant, at_] at invariant
  · -- The second test of `offset`.
    obtain ⟨turns, between, reads_, advanced, offset⟩ := invariant
    cases action with
    | test =>
      simp only [Sendfile.step, at_, Option.some.injEq] at stepped
      obtain rfl := stepped
      by_cases given : state.offset.isSome
      · simp only [if_pos given]
        exact ⟨turns, between.other rfl (by decide) rfl rfl rfl, (reads_other rfl).trans reads_,
          advanced.other rfl rfl, offset ▸ given⟩
      -- Without an offset `sendfile` returns here.
      · simp only [if_neg given]
        have clean : ¬ Failed (past ++ [.test]) := between.clean_append (by decide)
        exact ⟨fun failed => absurd failed clean, fun _ => ⟨rfl, turns,
          between.other rfl (by decide) rfl rfl rfl, (reads_other rfl).trans reads_,
          fun some_ => absurd (offset ▸ some_) given⟩⟩
    | _ => simp [Sendfile.step, at_] at stepped
  · -- The offset is handed to the caller.
    obtain ⟨turns, between, reads_, advanced, given⟩ := invariant
    cases action with
    | lseek succeeds =>
      have clean : ¬ Failed (past ++ [.lseek succeeds]) := between.clean_append (by simp [Failed])
      cases succeeds with
      | false =>
        simp only [Sendfile.step, at_, Bool.false_eq_true, if_false, Option.some.injEq] at stepped
        obtain rfl := stepped
        exact Invariant.fails rfl fun failed => absurd failed clean
      | true =>
        simp only [Sendfile.step, at_, if_true, Option.some.injEq] at stepped
        obtain rfl := stepped
        refine ⟨turns, between.other rfl (by decide) rfl rfl rfl, (reads_other rfl).trans reads_,
          given, ?_⟩
        rw [reads_other rfl, ← advanced]
    | _ => simp [Sendfile.step, at_] at stepped
  · -- The file offset is set back.
    obtain ⟨turns, between, reads_, given, offset⟩ := invariant
    cases action with
    | lseek succeeds =>
      have clean : ¬ Failed (past ++ [.lseek succeeds]) := between.clean_append (by simp [Failed])
      cases succeeds with
      | false =>
        simp only [Sendfile.step, at_, Bool.false_eq_true, if_false, Option.some.injEq] at stepped
        obtain rfl := stepped
        exact Invariant.fails rfl fun failed => absurd failed clean
      | true =>
        simp only [Sendfile.step, at_, if_true, Option.some.injEq] at stepped
        obtain rfl := stepped
        refine ⟨fun failed => absurd failed clean, fun _ => ⟨rfl, turns,
          between.other rfl (by decide) rfl rfl rfl, (reads_other rfl).trans reads_,
          fun _ => ⟨between.orig_eq given, ?_⟩⟩⟩
        rw [reads_other rfl, ← offset]
    | _ => simp [Sendfile.step, at_] at stepped

/-- Every statement keeps the invariant. -/
theorem Invariant.step {setup : Setup} {past : List Action} {state next : State} {action : Action}
    (invariant : Invariant setup past state)
    (stepped : step setup.file state action = some next) :
    Invariant setup (past ++ [action]) next := by
  -- The statements before the loop, in the loop and behind it have a lemma each.
  cases at_ : state.pc with
  | start => exact invariant.step_before (.inl at_) stepped
  | saveOrig => exact invariant.step_before (.inr (.inl at_)) stepped
  | setOffset => exact invariant.step_before (.inr (.inr at_)) stepped
  | loop => exact invariant.step_loop (.inl at_) stepped
  | read => exact invariant.step_loop (.inr (.inl at_)) stepped
  | write => exact invariant.step_loop (.inr (.inr at_)) stepped
  | finish => exact invariant.step_after (.inl at_) stepped
  | getOffset => exact invariant.step_after (.inr (.inl at_)) stepped
  | restore => exact invariant.step_after (.inr (.inr at_)) stepped
  -- `sendfile` does nothing when it has returned.
  | returned value => simp [Sendfile.step, at_] at stepped
  | fatal => simp [Sendfile.step, at_] at stepped

/-- It holds wherever a run of `sendfile` gets. -/
theorem Invariant.run {setup : Setup} {actions : List Action} {state : State}
    (ran : (sendfile setup).run (initial setup) actions = some state) :
    Invariant setup actions state :=
  Machine.run_history (fun _ _ _ _ _ invariant stepped => invariant.step stepped)
    (show Invariant setup [] (initial setup) from ⟨rfl, rfl⟩) ran

/-- Two runs of `sendfile` that differ in the bytes of the file only. -/
def State.Alike (first second : State) : Prop :=
  ∃ buf out, buf.length = first.buf.length ∧ second = { first with buf, out }

/-- Other statements than `read` and `write` do not touch the bytes. -/
theorem step_alike {file other : List UInt8} {first next : State} {action : Action}
    {buf out : List UInt8} (noRead : ∀ numRead, action ≠ .read numRead)
    (noWrite : ∀ numSent, action ≠ .write numSent)
    (stepped : step file first action = some next) :
    next.buf = first.buf ∧
      step other { first with buf, out } action = some { next with buf, out } := by
  -- None of the other statements looks at the bytes, so that both runs take the same branch.
  obtain ⟨pc, count, totSent, orig, buf_, offset, pos, out_⟩ := first
  cases action with
  | read numRead => exact absurd rfl (noRead numRead)
  | write numSent => exact absurd rfl (noWrite numSent)
  | lseek succeeds =>
    cases pc with
    | setOffset =>
      cases succeeds with
      | false =>
        obtain rfl := Option.some.inj stepped
        exact ⟨rfl, rfl⟩
      | true =>
        obtain _ | _ | _ := offset
        · exact nomatch stepped
        · obtain rfl := Option.some.inj stepped
          exact ⟨rfl, rfl⟩
        · exact nomatch stepped
    | saveOrig | getOffset | restore =>
      cases succeeds <;> (obtain rfl := Option.some.inj stepped; exact ⟨rfl, rfl⟩)
    | _ => exact nomatch stepped
  | test =>
    cases pc with
    | start | loop | finish =>
      obtain rfl := Option.some.inj stepped
      exact ⟨rfl, rfl⟩
    | _ => exact nomatch stepped
  | readFails =>
    cases pc with
    | read =>
      obtain rfl := Option.some.inj stepped
      exact ⟨rfl, rfl⟩
    | _ => exact nomatch stepped
  | writeFails =>
    cases pc with
    | write =>
      obtain rfl := Option.some.inj stepped
      exact ⟨rfl, rfl⟩
    | _ => exact nomatch stepped

/-- What a statement does depends on the length of the file, and not on its bytes. -/
theorem State.Alike.step {file other : List UInt8} (length : other.length = file.length)
    {first second next : State} {action : Action} (alike : first.Alike second)
    (stepped : Sendfile.step file first action = some next) :
    ∃ after, Sendfile.step other second action = some after ∧ next.Alike after := by
  have untouched : (∀ numRead, action ≠ .read numRead) → (∀ numSent, action ≠ .write numSent) →
      ∃ after, Sendfile.step other second action = some after ∧ next.Alike after := by
    intro noRead noWrite
    obtain ⟨buf, out, same, rfl⟩ := alike
    obtain ⟨kept, other_⟩ := step_alike noRead noWrite stepped
    exact ⟨_, other_, buf, out, kept ▸ same, rfl⟩
  cases action with
  | read numRead =>
    obtain ⟨buf, out, same, rfl⟩ := alike
    obtain ⟨pc, count, totSent, orig, buf_, offset, pos, out_⟩ := first
    cases pc with
    | read =>
      -- The same number of bytes is read, whatever they are.
      have readable : State.Readable other ⟨.read, count, totSent, orig, buf, offset, pos, out⟩
          numRead ↔
            State.Readable file ⟨.read, count, totSent, orig, buf_, offset, pos, out_⟩ numRead := by
        simp only [State.Readable, length]
      simp only [Sendfile.step, Option.ite_none_right_eq_some] at stepped
      simp only [Sendfile.step, readable, if_pos stepped.1]
      obtain ⟨-, stepped⟩ := stepped
      by_cases none_ : numRead = 0
      · rw [if_pos none_] at stepped ⊢
        obtain rfl := Option.some.inj stepped
        exact ⟨_, rfl, buf, out, same, rfl⟩
      · rw [if_neg none_] at stepped ⊢
        obtain rfl := Option.some.inj stepped
        refine ⟨_, rfl, (other.drop pos).take numRead, out, ?_, rfl⟩
        simp [length]
    | _ => exact nomatch stepped
  | write numSent =>
    obtain ⟨buf, out, same, rfl⟩ := alike
    obtain ⟨pc, count, totSent, orig, buf_, offset, pos, out_⟩ := first
    cases pc with
    | write =>
      -- The same number of bytes is written.
      simp only [Sendfile.step, Option.ite_none_right_eq_some] at stepped
      simp only [Sendfile.step, same, if_pos stepped.1]
      obtain ⟨-, stepped⟩ := stepped
      by_cases none_ : numSent = 0
      · rw [if_pos none_] at stepped ⊢
        obtain rfl := Option.some.inj stepped
        exact ⟨_, rfl, buf, out, same, rfl⟩
      · rw [if_neg none_] at stepped ⊢
        obtain rfl := Option.some.inj stepped
        exact ⟨_, rfl, buf, out ++ buf.take numSent, same, rfl⟩
    | _ => exact nomatch stepped
  | _ => exact untouched (fun _ => nofun) (fun _ => nofun)

/-- Another file of the same length can be copied in the same steps. -/
theorem State.Alike.run {setup : Setup} {file : List UInt8}
    (length : file.length = setup.file.length) {first second last : State}
    {actions : List Action} (alike : first.Alike second)
    (ran : (sendfile setup).run first actions = some last) :
    ∃ final, (sendfile { setup with file }).run second actions = some final ∧
      last.Alike final := by
  -- The induction follows the run.
  induction actions generalizing first second with
  | nil =>
    obtain rfl := Option.some.inj ran
    exact ⟨second, rfl, alike⟩
  | cons action rest ih =>
    obtain ⟨middle, stepped, remaining⟩ := (sendfile setup).run_cons_eq_some.mp ran
    obtain ⟨after, stepped', alike'⟩ := alike.step length stepped
    obtain ⟨final, ran', alike''⟩ := ih alike' remaining
    exact ⟨final, (Machine.run_cons_eq_some _).mpr ⟨after, stepped', ran'⟩, alike''⟩

/-- The bytes behind the starting offset have been copied, as many as `sendfile` has returned. -/
def Copied (setup : Setup) (state : State) (sent : Nat) : Prop :=
  state.out = (setup.file.drop setup.startPos).take sent ∧ state.out.length = sent ∧
    ∀ offset ∈ setup.offset, state.offset = some (offset + sent) ∧ state.pos = setup.pos

/--
Every `write` has accepted all that the `read` before it has brought.

The last one need not, when the offset is not handed to the caller.
-/
def Accepted (setup : Setup) (actions : List Action) : Prop :=
  if setup.offset.isSome then reads actions = sents actions
  else (reads actions).dropLast = (sents actions).dropLast

instance (setup : Setup) (actions : List Action) : Decidable (Accepted setup actions) :=
  decidable_of_iff
    (if setup.offset.isSome = true then reads actions = sents actions
      else (reads actions).dropLast = (sents actions).dropLast) Iff.rfl

/-- What `sendfile` has done when it returns a number of bytes. -/
theorem returned_turns {setup : Setup} {actions : List Action} {state : State} {sent : Nat}
    (ran : (sendfile setup).run (initial setup) actions = some state)
    (returned : state.pc = .returned sent) :
    ∃ turns, Between setup actions turns state ∧ reads actions = turns.map Prod.fst ∧
      sent = (turns.map Prod.snd).sum ∧ (setup.offset.isSome → state.pos = setup.pos ∧
        state.offset = some ((setup.startPos + (reads actions).sum : Nat) : Int)) := by
  -- A number of bytes is not `-1`, so that the invariant tells of the turns.
  have invariant := Invariant.run ran
  simp only [Invariant, returned] at invariant
  obtain ⟨value, turns, between, reads_, restored⟩ := invariant.2 (by omega)
  refine ⟨turns, between, reads_, ?_, restored⟩
  rw [← between.totSent_eq]
  exact Int.ofNat.inj value

/-- If nothing is left out between two turns, the copy is as it should be. -/
theorem copied_of_accepted {setup : Setup} {actions : List Action} {state : State} {sent : Nat}
    (ran : (sendfile setup).run (initial setup) actions = some state)
    (returned : state.pc = .returned sent) (accepted : Accepted setup actions) :
    Copied setup state sent := by
  obtain ⟨turns, between, reads_, rfl, restored⟩ := returned_turns ran returned
  rw [Accepted, reads_, between.sents_eq] at accepted
  -- In both cases at most the last turn writes less than it has read.
  have full : ∀ turn ∈ turns.dropLast, turn.1 = turn.2 := by
    split at accepted
    · intro turn mem
      exact List.map_inj_left.mp accepted turn (List.mem_of_mem_dropLast mem)
    · rw [← List.map_dropLast, ← List.map_dropLast] at accepted
      exact List.map_inj_left.mp accepted
  refine ⟨between.out_eq.trans (copied_eq between.bounded full), ?_, fun offset given => ?_⟩
  · rw [between.out_eq]
    cases turns with
    | nil => rfl
    | cons turn rest => exact copied_length between.bounded (between.inside nofun)
  -- The offset goes by what was read, which here is what was written.
  · have some_ : setup.offset.isSome := Option.isSome_of_mem given
    rw [if_pos some_] at accepted
    obtain ⟨pos, offset_⟩ := restored some_
    refine ⟨?_, pos⟩
    rw [offset_, reads_, accepted, ← between.valid offset given, Nat.cast_add]

/-- If something is left out, the offset that the caller gets is too high. -/
theorem accepted_of_copied {setup : Setup} {actions : List Action} {state : State} {sent : Nat}
    (ran : (sendfile setup).run (initial setup) actions = some state)
    (returned : state.pc = .returned sent) (given : setup.offset.isSome)
    (copied : Copied setup state sent) : Accepted setup actions := by
  -- The offset tells the sum of what was read, which has to be that of what was written.
  obtain ⟨turns, between, reads_, rfl, restored⟩ := returned_turns ran returned
  obtain ⟨offset, mem⟩ := Option.isSome_iff_exists.mp given
  have handed := (restored given).2
  rw [(copied.2.2 offset mem).1, ← between.valid offset mem, reads_] at handed
  have sums : (turns.map Prod.fst).sum = (turns.map Prod.snd).sum := by
    have := Option.some.inj handed
    omega
  rw [Accepted, if_pos given, reads_, between.sents_eq]
  exact List.map_inj_left.mpr (between.bounded.eq_of_sum sums)

/-- If something is left out, there is a file of that length of which the copy is wrong. -/
theorem exists_not_copied {setup : Setup} {actions : List Action} {state : State} {sent : Nat}
    (ran : (sendfile setup).run (initial setup) actions = some state)
    (returned : state.pc = .returned sent) (short : ¬ Accepted setup actions) :
    ∃ file final, file.length = setup.file.length ∧
      (sendfile { setup with file }).run (initial { setup with file }) actions = some final ∧
        ¬ Copied { setup with file } final sent := by
  by_cases given : setup.offset.isSome
  · -- The file that is copied is one.
    exact ⟨setup.file, state, rfl, ran, fun copied =>
      short (accepted_of_copied ran returned given copied)⟩
  · obtain ⟨turns, between, reads_, sum, -⟩ := returned_turns ran returned
    rw [Accepted, if_neg given, reads_, between.sents_eq, ← List.map_dropLast,
      ← List.map_dropLast, List.map_inj_left] at short
    simp only [not_forall] at short
    obtain ⟨turn, mem, unequal⟩ := short
    have less : turn.2 < turn.1 :=
      lt_of_le_of_ne (between.bounded turn (List.mem_of_mem_dropLast mem)).2 (Ne.symm unequal)
    obtain ⟨front, next, back, rfl⟩ := split_of_mem_dropLast mem
    obtain ⟨file, length, wrong⟩ :=
      copied_ne between.bounded less (between.inside (by simp))
    have alike : (initial setup).Alike (initial { setup with file }) := ⟨[], [], rfl, rfl⟩
    obtain ⟨final, ran', buf, out, -, rfl⟩ := alike.run length ran
    refine ⟨file, _, length, ran', fun copied => wrong ?_⟩
    -- The turns are the same, because the steps are.
    obtain ⟨turns', between', reads', sum', -⟩ := returned_turns ran' returned
    have same : turns' = front ++ turn :: next :: back :=
      turns_ext (reads'.symm.trans reads_) (between'.sents_eq.symm.trans between.sents_eq)
    rw [← sum, ← same]
    exact between'.out_eq.symm.trans copied.1

/--
Copies are right if and only if every `write` accepts what the `read` before it has brought.

Without an offset to hand over, a file of which the copy is wrong may have to be chosen.
-/
theorem sendfile_copied_iff {setup : Setup} {actions : List Action} {state : State} {sent : Nat}
    (ran : (sendfile setup).run (initial setup) actions = some state)
    (returned : state.pc = .returned sent) :
    ((∀ (file : List UInt8) (final : State), file.length = setup.file.length →
        (sendfile { setup with file }).run (initial { setup with file }) actions = some final →
          final.pc = .returned sent ∧ Copied { setup with file } final sent) ↔
            Accepted setup actions) ∧
      (setup.offset.isSome → (Copied setup state sent ↔ Accepted setup actions)) := by
  refine ⟨⟨fun right => ?_, fun accepted file final length ran' => ?_⟩, fun given => ?_⟩
  · by_contra short
    obtain ⟨file, final, length, ran', wrong⟩ := exists_not_copied ran returned short
    exact wrong (right file final length ran').2
  · -- The run with the other file ends as this one does.
    have alike : (initial setup).Alike (initial { setup with file }) := ⟨[], [], rfl, rfl⟩
    obtain ⟨final_, ran_, buf, out, -, rfl⟩ := alike.run length ran
    obtain rfl := Option.some.inj (ran'.symm.trans ran_)
    exact ⟨returned, copied_of_accepted ran' returned accepted⟩
  · exact ⟨accepted_of_copied ran returned given, copied_of_accepted ran returned⟩

/-- Three bytes, of which two are to be copied. -/
def letters (offset : Option Int) : Setup where
  file := [97, 98, 99]
  pos := 1
  offset := offset
  count := 2

/-- Two short reads, both of which are written at once. -/
def twoTurns : List Action :=
  [.test, .lseek true, .lseek true, .test, .read 1, .write 1, .test, .read 1, .write 1, .test,
    .test, .lseek true, .lseek true]

/-- Reading less than was asked for does no harm. -/
theorem sendfile_copied_iff_letters :
    ∃ state, (sendfile (letters (some 0))).run (initial (letters (some 0))) twoTurns = some state ∧
      Copied (letters (some 0)) state 2 ∧
        ∀ (file : List UInt8) (final : State), file.length = (letters (some 0)).file.length →
          (sendfile { letters (some 0) with file }).run
            (initial { letters (some 0) with file }) twoTurns = some final →
              final.pc = .returned (2 : Nat) ∧ Copied { letters (some 0) with file } final 2 := by
  -- Both turns write all that they have read.
  have ran : (sendfile (letters (some 0))).run (initial (letters (some 0))) twoTurns =
      some ⟨.returned 2, 0, 2, 1, [98], some 2, 1, [97, 98]⟩ := by decide
  have accepted : Accepted (letters (some 0)) twoTurns := by decide
  obtain ⟨anyFile, thisFile⟩ := sendfile_copied_iff ran rfl
  exact ⟨_, ran, (thisFile rfl).mpr accepted, anyFile.mpr accepted⟩

/-- The first `write` leaves something out, which is never written. -/
def shortWrite : List Action :=
  [.test, .test, .read 2, .write 1, .test, .read 1, .write 1, .test, .test]

/-- The second of three bytes is missing in the copy. -/
theorem sendfile_not_copied :
    ¬ ∀ (setup : Setup) (actions : List Action) (state : State) (sent : Nat),
      (sendfile setup).run (initial setup) actions = some state →
        state.pc = .returned sent → Copied setup state sent := by
  -- The second byte is dropped, and the third one takes its place.
  intro promised
  have ran : (sendfile { letters none with pos := 0 }).run
      (initial { letters none with pos := 0 }) shortWrite =
        some ⟨.returned 2, 0, 2, 0, [99], none, 3, [97, 99]⟩ := by decide
  have copied := promised _ _ _ 2 ran rfl
  exact absurd copied.1 (by decide)

/-- A `read` or a `write` has failed, and `sendfile` has returned `-1` at once. -/
theorem failed_returned {setup : Setup} {actions : List Action} {state : State}
    (ran : (sendfile setup).run (initial setup) actions = some state) (failed : Failed actions) :
    state.pc = .returned (-1) ∧ state.Advanced setup actions ∧ setup.Valid := by
  -- A failure is only in the past of `sendfile` when it has returned.
  have invariant := Invariant.run ran
  cases at_ : state.pc with
  | returned value =>
    simp only [Invariant, at_] at invariant
    obtain ⟨rfl, advanced⟩ := invariant.1 failed
    exact ⟨rfl, advanced⟩
  | start =>
    simp only [Invariant, at_] at invariant
    obtain ⟨rfl, -⟩ := invariant
    exact absurd failed (by decide)
  | saveOrig =>
    simp only [Invariant, at_] at invariant
    obtain ⟨rfl, -⟩ := invariant
    exact absurd failed (by decide)
  | setOffset =>
    simp only [Invariant, at_] at invariant
    obtain ⟨rfl, -⟩ := invariant
    exact absurd failed (by decide)
  | loop | read | finish | getOffset | restore =>
    simp only [Invariant, at_] at invariant
    obtain ⟨turns, between, -⟩ := invariant
    exact absurd failed between.clean
  | write =>
    simp only [Invariant, at_] at invariant
    obtain ⟨turns, numRead, between, -⟩ := invariant
    exact absurd failed between.clean
  | fatal =>
    simp only [Invariant, at_] at invariant
    exact absurd failed invariant

/--
`sendfile` returns `-1` without setting the file offset back when a `read` or a `write` fails.

It is where it was if the bytes that have been read lead there by chance.
-/
theorem sendfile_restored_iff {setup : Setup} {actions : List Action} {state : State} {offset : Int}
    (ran : (sendfile setup).run (initial setup) actions = some state)
    (given : setup.offset = some offset) (failed : Failed actions) :
    state.pc = .returned (-1) ∧
      (state.pos = setup.pos ↔ offset + (reads actions).sum = setup.pos) := by
  -- Where the failure leaves the file offset, it stays.
  obtain ⟨returned, advanced, valid⟩ := failed_returned ran failed
  refine ⟨returned, ?_⟩
  have start : (setup.startPos : Int) = offset := valid offset given
  rw [advanced, ← start]
  omega

/-- A byte is copied before a `read` fails. -/
def readError : List Action :=
  [.test, .lseek true, .lseek true, .test, .read 1, .write 1, .test, .readFails]

/-- The byte that was read leads to where the file offset was. -/
theorem sendfile_restored_iff_letters :
    ∃ state, (sendfile (letters (some 0))).run (initial (letters (some 0))) readError = some state ∧
      state.pc = .returned (-1) ∧ state.pos = (letters (some 0)).pos := by
  -- The offset given is that of the file, so the failing read leaves it where it was.
  have ran : (sendfile (letters (some 0))).run (initial (letters (some 0))) readError =
      some ⟨.returned (-1), 1, 1, 1, [97], some 0, 1, [97]⟩ := by decide
  obtain ⟨returned, restored⟩ := sendfile_restored_iff ran rfl (by decide)
  exact ⟨_, ran, returned, restored.mpr (by decide)⟩

/-- After the same error the file offset is two bytes ahead. -/
theorem sendfile_not_restored :
    ¬ ∀ (setup : Setup) (actions : List Action) (state : State),
      (sendfile setup).run (initial setup) actions = some state → setup.offset.isSome →
        Failed actions → state.pos = setup.pos := by
  intro promised
  -- The second read fails, and the offset of the file is not put back.
  have ran : (sendfile (letters (some 2))).run (initial (letters (some 2))) readError =
      some ⟨.returned (-1), 1, 1, 1, [99], some 2, 3, [99]⟩ := by decide
  exact absurd (promised _ _ _ ran rfl (by decide)) (by decide)

end SysProg.Sockets.Sendfile
