import SysProg.Files.Chiflag

/-! When `chiflag` treats each file as if it were the only one. -/

namespace SysProg.Files

/-- What the first character of `argv[1]` asks for. -/
inductive Operator where
  | add
  | remove
  | set
  deriving DecidableEq, Repr

/-- The character of an operator. -/
def Operator.char : Operator → Char
  | .add => '+'
  | .remove => '-'
  | .set => '='

/-- What a file should get that has these flags. -/
def Operator.apply (operator : Operator) (old mask : Flags) : Flags :=
  match operator with
  | .add => old ||| mask
  | .remove => old &&& ~~~mask
  | .set => mask

variable {File : Type*} [DecidableEq File]

/-- The files that get flags, which are those that can be opened before the program ends. -/
def treated (operator : Operator) : List (Argument File) → List File
  | [] => []
  | argument :: rest =>
    match argument.file with
    | none => treated operator rest
    | some file =>
      if (operator ≠ .set ∧ argument.getFlagsFails) ∨ argument.setFlagsFails then []
      else if argument.closeFails then [file]
      else file :: treated operator rest

/-- Every file among these has got what it should, and no other file has changed. -/
def Right (operator : Operator) (mask : Flags) (before after : File → Flags)
    (files : List File) : Prop :=
  ∀ file, after file =
    if file ∈ files then operator.apply (before file) mask else before file

/-- After every argument, the files so far have been treated as if each were the only one. -/
def TreatsAlone (operator : Operator) (letters : List Char) (mask : Flags)
    (arguments : List (Argument File)) (flags : File → Flags) : Prop :=
  ∀ front, front <+: arguments → front ≠ [] →
    ∃ state, chiflag operator.char letters front flags = some state ∧
      Right operator mask flags state.flags (treated operator front)

/-- The flags of a file do no harm to a file that comes next, before which there are others. -/
def HarmlessTo (operator : Operator) (mask : Flags) (flags : File → Flags) (front : List File)
    (file next : File) : Prop :=
  match operator with
  | .add => flags file &&& ~~~(flags next ||| mask) = 0
  | .remove =>
    flags next &&& flags file &&& ~~~mask = 0 ∧
      (next ∈ front ++ [file] ∨ flags next &&& mask = 0)
  | .set => True

/-- No file does harm to the next one. -/
def Harmless (operator : Operator) (mask : Flags) (flags : File → Flags)
    (files : List File) : Prop :=
  ∀ front file next back, files = front ++ file :: next :: back →
    HarmlessTo operator mask flags front file next

/-- The variable and the flags after a file, when nothing fails. -/
def step (operator : Operator) (state : Flags × (File → Flags)) (file : File) :
    Flags × (File → Flags) :=
  let attr := operator.apply (state.2 file) state.1
  (attr, Function.update state.2 file attr)

@[simp] theorem step_fst (operator : Operator) (state : Flags × (File → Flags)) (file : File) :
    (step operator state file).1 = operator.apply (state.2 file) state.1 :=
  rfl

@[simp] theorem step_snd (operator : Operator) (state : Flags × (File → Flags)) (file : File) :
    (step operator state file).2 =
      Function.update state.2 file (operator.apply (state.2 file) state.1) :=
  rfl

/-- The variable and the flags after all files, when nothing fails. -/
def pass (operator : Operator) (attr : Flags) (flags : File → Flags) (files : List File) :
    Flags × (File → Flags) :=
  files.foldl (step operator) (attr, flags)

/-- A file that cannot be opened is passed over. -/
theorem turn_none {operator : Operator} {state : State File} {argument : Argument File}
    (found : argument.file = none) : turn operator.char state argument = state := by
  rw [turn, found]

/-- What is done with a file that can be opened. -/
theorem turn_some (operator : Operator) (state : State File) {argument : Argument File}
    {file : File} (found : argument.file = some file) :
    turn operator.char state argument =
      let attr := operator.apply (state.flags file) state.attr
      if operator ≠ .set ∧ argument.getFlagsFails then { state with errExit := some .ioctl1 }
      else if argument.setFlagsFails then { state with attr, errExit := some .ioctl2 }
      else { attr, flags := Function.update state.flags file attr,
             errExit := if argument.closeFails then some .close else state.errExit } := by
  -- The flags are read unless they are set, then changed, and the file is closed.
  rw [turn, found]
  cases operator <;> simp [Operator.char, Operator.apply]

/-- The program goes on with the next argument. -/
theorem loop_next {operator : Char} {state : State File} {argument : Argument File}
    (runs : (turn operator state argument).errExit = none) (rest : List (Argument File)) :
    loop operator state (argument :: rest) = loop operator (turn operator state argument) rest := by
  simp [loop, runs]

/-- The program ends. -/
theorem loop_stop {operator : Char} {state : State File} {argument : Argument File}
    (ends : (turn operator state argument).errExit.isSome) (rest : List (Argument File)) :
    loop operator state (argument :: rest) = turn operator state argument := by
  simp [loop, ends]

/-- The files that are treated get their flags one after the other. -/
theorem flags_loop {operator : Operator} {state : State File} (runs : state.errExit = none)
    (arguments : List (Argument File)) :
    (loop operator.char state arguments).flags =
      (pass operator state.attr state.flags (treated operator arguments)).2 := by
  induction arguments generalizing state with
  | nil => rfl
  | cons argument rest ih =>
    cases found : argument.file with
    | none =>
      have same : turn operator.char state argument = state := turn_none found
      rw [loop_next (by rw [same, runs]), same, ih runs, treated, found]
    | some file =>
      have done := turn_some operator state found
      rw [treated, found]
      dsimp only at done ⊢
      -- The program may end with each of the three calls.
      by_cases get : operator ≠ .set ∧ argument.getFlagsFails = true
      · rw [if_pos get] at done
        rw [if_pos (.inl get), loop_stop (by simp [done]), done]
        rfl
      · rw [if_neg get] at done
        by_cases set : argument.setFlagsFails = true
        · rw [if_pos set] at done
          rw [if_pos (.inr set), loop_stop (by simp [done]), done]
          rfl
        · rw [if_neg set] at done
          rw [if_neg (not_or.mpr ⟨get, set⟩)]
          by_cases close : argument.closeFails = true
          · rw [if_pos close] at done
            rw [if_pos close, loop_stop (by simp [done]), done]
            rfl
          · rw [if_neg close, runs] at done
            rw [if_neg close, loop_next (by rw [done]), done, ih rfl]
            rfl

omit [DecidableEq File] in
/-- Fewer arguments are fewer files. -/
theorem treated_front {operator : Operator} {front arguments : List (Argument File)}
    (prefix_ : front <+: arguments) : treated operator front <+: treated operator arguments := by
  -- The induction follows the arguments in front.
  induction arguments generalizing front with
  | nil => rw [List.prefix_nil.mp prefix_]
  | cons argument rest ih =>
    cases front with
    | nil => exact List.nil_prefix
    | cons first front =>
      obtain ⟨rfl, later⟩ := List.cons_prefix_cons.mp prefix_
      unfold treated
      cases first.file with
      | none => exact ih later
      | some file =>
        dsimp only
        split_ifs
        · exact List.prefix_refl _
        · exact List.prefix_refl _
        · exact List.cons_prefix_cons.mpr ⟨rfl, ih later⟩

omit [DecidableEq File] in
/-- Fewer files are those of fewer arguments. -/
theorem exists_treated_eq {operator : Operator} {files : List File}
    {arguments : List (Argument File)} (prefix_ : files <+: treated operator arguments) :
    ∃ front, front <+: arguments ∧ treated operator front = files := by
  induction arguments generalizing files with
  | nil => exact ⟨[], List.prefix_refl _, (List.prefix_nil.mp prefix_).symm⟩
  | cons argument rest ih =>
    cases files with
    | nil => exact ⟨[], List.nil_prefix, rfl⟩
    | cons first files =>
      -- The argument is part of it in any case.
      suffices ∃ front, front <+: rest ∧ treated operator (argument :: front) = first :: files by
        obtain ⟨front, later, same⟩ := this
        exact ⟨argument :: front, List.cons_prefix_cons.mpr ⟨rfl, later⟩, same⟩
      unfold treated at prefix_ ⊢
      cases found : argument.file with
      | none =>
        simp only [found] at prefix_
        exact ih prefix_
      | some file =>
        simp only [found] at prefix_
        dsimp only
        split_ifs at prefix_ ⊢ with fails closes
        · exact absurd (List.prefix_nil.mp prefix_) nofun
        · obtain ⟨rfl, none_⟩ := List.cons_prefix_cons.mp prefix_
          rw [List.prefix_nil.mp none_]
          exact ⟨[], List.nil_prefix, rfl⟩
        · obtain ⟨rfl, later⟩ := List.cons_prefix_cons.mp prefix_
          obtain ⟨front, inside, rfl⟩ := ih later
          exact ⟨front, inside, rfl⟩

/-- Flags are known from their bits. -/
theorem flags_eq_iff (first second : Flags) :
    first = second ↔ ∀ bit < 32, first.getLsbD bit = second.getLsbD bit :=
  BitVec.eq_of_getLsbD_eq_iff

/-- Adding what another file has got as well is right if the file would have it anyway. -/
theorem add_iff (old other mask : Flags) :
    old ||| (other ||| mask) = old ||| mask ↔ other &&& ~~~(old ||| mask) = 0 := by
  rw [flags_eq_iff, flags_eq_iff]
  -- It holds for each bit by itself, in each of the eight cases.
  refine forall₂_congr fun bit inside => ?_
  simp only [BitVec.getLsbD_or, BitVec.getLsbD_and, BitVec.getLsbD_not, BitVec.ofNat_eq_ofNat,
    BitVec.getLsbD_zero, inside]
  cases old.getLsbD bit <;> cases other.getLsbD bit <;> cases mask.getLsbD bit <;> decide

/-- Removing what another file has kept is right if that and the mask are both without effect. -/
theorem remove_iff (old other mask : Flags) :
    old &&& ~~~(other &&& ~~~mask) = old &&& ~~~mask ↔
      old &&& other &&& ~~~mask = 0 ∧ old &&& mask = 0 := by
  rw [flags_eq_iff, flags_eq_iff, flags_eq_iff, ← forall₂_and]
  -- It holds for each bit by itself, in each of the eight cases.
  refine forall₂_congr fun bit inside => ?_
  simp only [BitVec.getLsbD_and, BitVec.getLsbD_not, BitVec.ofNat_eq_ofNat,
    BitVec.getLsbD_zero, inside]
  cases old.getLsbD bit <;> cases other.getLsbD bit <;> cases mask.getLsbD bit <;> decide

/-- The same for a file that has been treated before. -/
theorem remove_again_iff (old other mask : Flags) :
    old &&& ~~~mask &&& ~~~(other &&& ~~~mask) = old &&& ~~~mask ↔
      old &&& other &&& ~~~mask = 0 := by
  rw [flags_eq_iff, flags_eq_iff]
  -- It holds for each bit by itself, in each of the eight cases.
  refine forall₂_congr fun bit inside => ?_
  simp only [BitVec.getLsbD_and, BitVec.getLsbD_not, BitVec.ofNat_eq_ofNat,
    BitVec.getLsbD_zero, inside]
  cases old.getLsbD bit <;> cases other.getLsbD bit <;> cases mask.getLsbD bit <;> decide

/-- Adding for a file that has been treated before. -/
theorem add_again_iff (old other mask : Flags) :
    old ||| mask ||| (other ||| mask) = old ||| mask ↔ other &&& ~~~(old ||| mask) = 0 := by
  rw [← add_iff, BitVec.or_assoc, ← BitVec.or_assoc mask, BitVec.or_comm mask other,
    BitVec.or_assoc other, BitVec.or_self]

/-- What the last file has got is in the variable. -/
theorem pass_append (operator : Operator) (mask : Flags) (flags : File → Flags)
    (files : List File) (file : File) :
    pass operator mask flags (files ++ [file]) =
      step operator (pass operator mask flags files) file := by
  simp [pass]

variable {operator : Operator} {mask : Flags} {flags : File → Flags}

/-- One more file is treated right if it gets what it should. -/
theorem right_append_iff {files : List File} {file : File}
    (right : Right operator mask flags (pass operator mask flags files).2 files) :
    Right operator mask flags (pass operator mask flags (files ++ [file])).2 (files ++ [file]) ↔
      operator.apply ((pass operator mask flags files).2 file) (pass operator mask flags files).1 =
        operator.apply (flags file) mask := by
  -- Only the file behind the others gets anything.
  rw [pass_append, step_snd]
  constructor
  · intro all
    have this := all file
    rwa [Function.update_self, if_pos (by simp)] at this
  · intro same other
    by_cases it : other = file
    · subst it
      rw [Function.update_self, if_pos (by simp), same]
    · rw [Function.update_of_ne it, right other]
      simp [it]

/-- The file after another one gets what it should if that one does no harm to it. -/
theorem apply_iff {front : List File} {file next : File}
    (right : Right operator mask flags (pass operator mask flags (front ++ [file])).2
      (front ++ [file])) :
    operator.apply ((pass operator mask flags (front ++ [file])).2 next)
        (pass operator mask flags (front ++ [file])).1 = operator.apply (flags next) mask ↔
      HarmlessTo operator mask flags front file next := by
  -- The variable still has what the file before has got.
  have last : (pass operator mask flags (front ++ [file])).1 =
      (pass operator mask flags (front ++ [file])).2 file := by
    rw [pass_append, step_fst, step_snd, Function.update_self]
  have own : file ∈ front ++ [file] := List.mem_append_right _ List.mem_cons_self
  rw [last, right next, right file, if_pos own]
  unfold HarmlessTo
  cases operator with
  | add =>
    by_cases again : next ∈ front ++ [file]
    · rw [if_pos again]
      exact add_again_iff (flags next) (flags file) mask
    · rw [if_neg again]
      exact add_iff (flags next) (flags file) mask
  | remove =>
    by_cases again : next ∈ front ++ [file]
    · rw [if_pos again]
      exact (remove_again_iff (flags next) (flags file) mask).trans
        (and_iff_left (.inl again)).symm
    · rw [if_neg again, or_iff_right again]
      exact remove_iff (flags next) (flags file) mask
  | set => exact iff_of_true rfl trivial

omit [DecidableEq File] in
/-- Pairs of neighbours in a list with one more element. -/
theorem harmless_append_iff {front : List File} {file next : File} :
    Harmless operator mask flags (front ++ [file] ++ [next]) ↔
      Harmless operator mask flags (front ++ [file]) ∧
        HarmlessTo operator mask flags front file next := by
  constructor
  · intro all
    refine ⟨fun front' file' next' back same => ?_, all front file next [] (by simp)⟩
    exact all front' file' next' (back ++ [next]) (by rw [same]; simp)
  · rintro ⟨earlier, here⟩ front' file' next' back same
    -- The pair is the last one, or it was there before.
    obtain rfl | ⟨back', last, rfl⟩ := List.eq_nil_or_concat' back
    · have split : front ++ [file] ++ [next] = front' ++ [file'] ++ [next'] := by simpa using same
      obtain ⟨upTo, next_⟩ := List.append_inj' split rfl
      obtain ⟨rfl, file_⟩ := List.append_inj' upTo rfl
      obtain rfl := List.singleton_inj.mp file_
      obtain rfl := List.singleton_inj.mp next_
      exact here
    · have split : front ++ [file] ++ [next] = front' ++ file' :: next' :: back' ++ [last] := by
        simpa using same
      exact earlier front' file' next' back' (List.append_inj' split rfl).1

/-- All files are treated right, one after the other, if and only if none does harm to the next. -/
theorem right_prefixes_iff (files : List File) :
    (∀ front, front <+: files →
        Right operator mask flags (pass operator mask flags front).2 front) ↔
      Harmless operator mask flags files := by
  induction files using List.reverseRecOn with
  | nil =>
    refine ⟨fun _ front file next back same => absurd same (by simp), fun _ front none_ file => ?_⟩
    rw [List.prefix_nil.mp none_]
    rfl
  | append_singleton files next ih =>
    -- The last file is the only one that has not been dealt with.
    have split : (∀ front, front <+: files ++ [next] →
        Right operator mask flags (pass operator mask flags front).2 front) ↔
          Harmless operator mask flags files ∧
            Right operator mask flags (pass operator mask flags (files ++ [next])).2
              (files ++ [next]) := by
      rw [← ih]
      refine ⟨fun all => ⟨fun front part => all front (part.trans (List.prefix_append _ _)),
        all _ (List.prefix_refl _)⟩, fun ⟨earlier, whole⟩ front part => ?_⟩
      obtain rfl | part := List.prefix_concat_iff.mp (by simpa using part)
      · simpa using whole
      · exact earlier front part
    rw [split]
    obtain rfl | ⟨front, file, rfl⟩ := List.eq_nil_or_concat' files
    · refine ⟨fun _ front file next_ back same => ?_, fun _ => ⟨?_, ?_⟩⟩
      · have length := congrArg List.length same
        simp at length
        omega
      · exact fun front file next_ back same => absurd same (by simp)
      -- The first file gets what it should in any case.
      · exact (right_append_iff fun _ => rfl).mpr rfl
    · rw [harmless_append_iff]
      refine and_congr_right fun earlier => ?_
      have right := ih.mpr earlier _ (List.prefix_refl _)
      exact (right_append_iff right).trans (apply_iff right)

/-- The loop is entered when there are files and the attributes are known. -/
theorem chiflag_eq {letters : List Char} (denotes : attributes 0 letters = some mask)
    {arguments : List (Argument File)} (some_ : arguments ≠ []) (flags : File → Flags) :
    chiflag operator.char letters arguments flags =
      some (loop operator.char ⟨mask, flags, none⟩ arguments) := by
  -- `"--help"` is no attribute string.
  have usage : ¬ (arguments = [] ∨ operator.char ∉ ['+', '-', '='] ∨
      operator.char :: letters = "--help".toList) := by
    refine not_or.mpr ⟨some_, not_or.mpr ⟨not_not.mpr ?_, fun same => ?_⟩⟩
    · cases operator <;> simp [Operator.char]
    · obtain rfl : letters = "-help".toList := (List.cons.inj same).2
      exact absurd denotes nofun
  rw [chiflag, if_neg usage, denotes]
  rfl

/--
`chiflag` treats files as if each were the only one if and only if none does harm to the next one.
-/
theorem chiflag_treatsAlone_iff (operator : Operator) {letters : List Char} {mask : Flags}
    (denotes : attributes 0 letters = some mask) (arguments : List (Argument File))
    (flags : File → Flags) :
    TreatsAlone operator letters mask arguments flags ↔
      Harmless operator mask flags (treated operator arguments) := by
  -- What is said of every number of arguments is said of every number of files.
  rw [← right_prefixes_iff]
  constructor
  · intro alone files part
    obtain ⟨front, inside, rfl⟩ := exists_treated_eq part
    by_cases none_ : front = []
    · subst none_
      exact fun file => rfl
    · obtain ⟨state, ran, right⟩ := alone front inside none_
      rw [chiflag_eq denotes none_, Option.some.injEq] at ran
      rwa [← ran, flags_loop rfl] at right
  · intro right front inside some_
    refine ⟨_, chiflag_eq denotes some_ flags, ?_⟩
    rw [flags_loop rfl]
    exact right _ (treated_front inside)

/-- A file that can be opened, where nothing fails. -/
def opened (file : Bool) : Argument Bool :=
  ⟨some file, false, false, false⟩

/-- The first file has a flag, and the other one has none. -/
def oneFlag (file : Bool) : Flags :=
  if file then 0x40 else 0

/-- The theorem, for a list of two files. -/
theorem chiflag_treatsAlone_iff_two :
    TreatsAlone .add ['a'] 0x20 [opened true, opened false] oneFlag ↔
      Harmless .add 0x20 oneFlag (treated .add [opened true, opened false]) :=
  chiflag_treatsAlone_iff .add rfl _ _

/-- `chiflag +a` gives the second file the flag of the first one. -/
theorem chiflag_not_treatsAlone :
    ¬ ∀ (operator : Operator) (letters : List Char) (mask : Flags)
      (arguments : List (Argument Bool)) (flags : Bool → Flags),
      attributes 0 letters = some mask → TreatsAlone operator letters mask arguments flags := by
  -- The second file gets the flag that the first one had.
  intro promised
  obtain ⟨state, ran, right⟩ :=
    promised .add ['a'] 0x20 [opened true, opened false] oneFlag rfl _ (List.prefix_refl _) nofun
  have denotes : attributes 0 ['a'] = some 0x20 := rfl
  rw [chiflag_eq denotes (List.cons_ne_nil _ _) oneFlag, Option.some.injEq] at ran
  have second := right false
  rw [← ran] at second
  exact absurd second (by decide)

end SysProg.Files
