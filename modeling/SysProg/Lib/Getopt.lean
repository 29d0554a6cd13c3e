import Mathlib.Tactic

/-! How `getopt` reads the options of a command line, when it stops at the first other argument. -/

namespace SysProg.Getopt

/-- A string of C, up to its null byte. -/
abbrev CString := List Char

/-- The options that there are, and whether they take an argument. -/
abbrev Table := Char → Option Bool

/-- What the letters of an option string say. -/
def optionString : List Char → List (Char × Bool)
  | option :: ':' :: rest => (option, true) :: optionString rest
  | option :: rest => (option, false) :: optionString rest
  | [] => []

/-- The table of a list of options. -/
def tableOf (options : List (Char × Bool)) : Table :=
  fun option => options.lookup option

/-- An option that is not in the list is not in the table. -/
theorem tableOf_eq_none {options : List (Char × Bool)} {option : Char}
    (absent : option ∉ options.map Prod.fst) : tableOf options option = none := by
  -- An entry for the letter would make it one of the options.
  rw [tableOf, List.lookup_eq_none_iff]
  intro entry mem
  rw [bne_iff_ne]
  rintro rfl
  exact absent (List.mem_map_of_mem mem)

/-- What a call of `getopt` returns, with `optarg`. -/
inductive Answer where
  | option (option : Char) (optarg : Option CString)
  /-- `'?'`, for an unknown option or a missing argument. -/
  | bad (optopt : Char)
  deriving DecidableEq, Repr

/-- The rest of the argument that is being scanned, and the arguments behind it. -/
structure Scan where
  nextchar : CString
  arguments : List CString
  deriving DecidableEq, Repr

/-- How much there is still to be scanned. -/
def Scan.size (scan : Scan) : Nat :=
  scan.nextchar.length + (scan.arguments.map fun argument => argument.length + 1).sum

/-- What comes of an option letter with these characters behind it. -/
def letter (table : Table) (option : Char) (rest : CString) (arguments : List CString) :
    Answer × Scan :=
  match table option with
  | none => (.bad option, ⟨rest, arguments⟩)
  | some false => (.option option none, ⟨rest, arguments⟩)
  | some true =>
    -- The argument is what is behind the letter, or else the next one.
    if rest ≠ [] then (.option option (some rest), ⟨[], arguments⟩)
    else
      match arguments with
      | [] => (.bad option, ⟨[], []⟩)
      | argument :: arguments => (.option option (some argument), ⟨[], arguments⟩)

/-- A call of `getopt`, where no answer stands for `-1`. -/
def getopt (table : Table) (scan : Scan) : Option Answer × Scan :=
  match scan with
  | ⟨option :: rest, arguments⟩ =>
    let (answer, scan) := letter table option rest arguments
    (some answer, scan)
  | ⟨[], []⟩ => (none, scan)
  | ⟨[], argument :: arguments⟩ =>
    match argument with
    | ['-', '-'] => (none, ⟨[], arguments⟩)
    | '-' :: option :: rest =>
      let (answer, scan) := letter table option rest arguments
      (some answer, scan)
    | _ => (none, scan)

/-- Nothing is scanned twice. -/
theorem size_letter_le (table : Table) (option : Char) (rest : CString)
    (arguments : List CString) :
    (letter table option rest arguments).2.size ≤ Scan.size ⟨rest, arguments⟩ := by
  -- An argument behind the letter takes away even more.
  unfold letter
  cases table option with
  | none => exact le_rfl
  | some takes =>
    cases takes with
    | false => exact le_rfl
    | true =>
      dsimp only
      split
      · simp [Scan.size]
      · cases arguments with
        | nil => simp [Scan.size]
        | cons argument arguments =>
          simp [Scan.size]
          omega

/-- Every option makes what there is to be scanned smaller. -/
theorem size_getopt_lt (table : Table) (scan : Scan) (answer : Answer)
    (found : (getopt table scan).1 = some answer) : (getopt table scan).2.size < scan.size := by
  -- At least one letter is gone.
  obtain ⟨nextchar, arguments⟩ := scan
  cases nextchar with
  | cons option rest =>
    refine (size_letter_le table option rest arguments).trans_lt ?_
    simp [Scan.size]
  | nil =>
    cases arguments with
    | nil => exact absurd found nofun
    | cons argument arguments =>
      revert found
      unfold getopt
      dsimp only
      split
      · exact nofun
      · rename_i option rest _
        intro found
        refine (size_letter_le table option rest arguments).trans_lt ?_
        simp [Scan.size]
        omega
      · exact nofun

/-- All answers up to `-1`, and what is left of the command line then. -/
def answers (table : Table) (scan : Scan) : List Answer × Scan :=
  match _found : getopt table scan with
  | (none, scan) => ([], scan)
  | (some answer, next) =>
    let (later, last) := answers table next
    (answer :: later, last)
termination_by scan.size
decreasing_by
  have smaller := size_getopt_lt table scan answer (by rw [_found])
  rwa [_found] at smaller

/-- A loop over the options that ends with the first error. -/
def loop {State Error : Type*} (table : Table) (body : State → Answer → Except Error State)
    (state : State) (scan : Scan) : Except Error (State × Scan) :=
  match _found : getopt table scan with
  | (none, scan) => .ok (state, scan)
  | (some answer, next) =>
    match body state answer with
    | .error error => .error error
    | .ok state => loop table body state next
termination_by scan.size
decreasing_by
  have smaller := size_getopt_lt table scan answer (by rw [_found])
  rwa [_found] at smaller

section

variable {table : Table} {scan next last : Scan} {answer : Answer}

/-- There is nothing more to be answered. -/
theorem answers_stop (found : getopt table scan = (none, last)) :
    answers table scan = ([], last) := by
  rw [answers]
  -- getopt() has returned -1, so the loop ends.
  split
  · simp_all
  · simp_all

/-- The first answer, and then the others. -/
theorem answers_step (found : getopt table scan = (some answer, next)) :
    answers table scan = (answer :: (answers table next).1, (answers table next).2) := by
  rw [answers]
  -- getopt() has returned an answer, so the loop goes on.
  split
  · simp_all
  · simp_all

variable {State Error : Type*} {body : State → Answer → Except Error State} {state : State}

/-- The loop ends where there is nothing more to be answered. -/
theorem loop_stop (found : getopt table scan = (none, last)) :
    loop table body state scan = .ok (state, last) := by
  rw [loop]
  -- getopt() has returned -1, so the loop ends.
  split
  · simp_all
  · simp_all

/-- The loop goes on with the first answer, if that is no error. -/
theorem loop_step (found : getopt table scan = (some answer, next)) :
    loop table body state scan =
      match body state answer with
      | .error error => .error error
      | .ok state => loop table body state next := by
  rw [loop]
  -- getopt() has returned an answer, so the body is run on it.
  split
  · simp_all
  · simp_all

/-- The loop goes through the answers one after the other. -/
theorem loop_eq (scan : Scan) :
    loop table body state scan =
      ((answers table scan).1.foldlM body state).map fun state =>
        (state, (answers table scan).2) := by
  -- The induction follows what there is still to be scanned.
  induction size : scan.size using Nat.strong_induction_on generalizing scan state with
  | _ size_ ih =>
    cases found : getopt table scan with
    | mk answer next =>
      cases answer with
      | none =>
        rw [loop_stop found, answers_stop found]
        rfl
      | some answer =>
        have smaller := size_getopt_lt table scan answer (by rw [found])
        rw [found, size] at smaller
        rw [loop_step found, answers_step found, List.foldlM_cons]
        cases body state answer with
        | error error => rfl
        | ok state => exact ih next.size smaller next rfl

end

/-- An option as it is in the table. -/
def Takes (table : Table) (given : Char × Option CString) : Prop :=
  table given.1 = some given.2.isSome

/-- An option letter is answered as it is in the table. -/
theorem takes_letter {table : Table} {option found : Char} {rest : CString}
    {arguments : List CString} {optarg : Option CString}
    (answer : (letter table option rest arguments).1 = .option found optarg) :
    Takes table (found, optarg) := by
  -- The argument is behind the letter, or it is the next one.
  unfold letter at answer
  split at answer
  · exact absurd answer nofun
  · rename_i takes
    obtain ⟨rfl, rfl⟩ := Answer.option.inj answer
    exact takes
  · rename_i takes
    split at answer
    · obtain ⟨rfl, rfl⟩ := Answer.option.inj answer
      exact takes
    · cases arguments with
      | nil => exact absurd answer nofun
      | cons argument arguments =>
        obtain ⟨rfl, rfl⟩ := Answer.option.inj answer
        exact takes

/-- An option is answered as it is in the table. -/
theorem takes_getopt {table : Table} {scan : Scan} {option : Char} {optarg : Option CString}
    (answer : (getopt table scan).1 = some (.option option optarg)) :
    Takes table (option, optarg) := by
  unfold getopt at answer
  -- A letter comes from the rest of a cluster, or from the next argument.
  split at answer
  · exact takes_letter (Option.some.inj answer)
  · exact absurd answer nofun
  · split at answer
    · exact absurd answer nofun
    · exact takes_letter (Option.some.inj answer)
    · exact absurd answer nofun

/-- All options are answered as they are in the table. -/
theorem takes_answers {table : Table} {option : Char} {optarg : Option CString} (scan : Scan)
    (answer : .option option optarg ∈ (answers table scan).1) :
    Takes table (option, optarg) := by
  -- The induction follows what there is still to be scanned.
  induction size : scan.size using Nat.strong_induction_on generalizing scan with
  | _ size_ ih =>
    cases found : getopt table scan with
    | mk first next =>
      cases first with
      | none =>
        rw [answers_stop found] at answer
        exact absurd answer List.not_mem_nil
      | some first =>
        have smaller := size_getopt_lt table scan first (by rw [found])
        rw [found, size] at smaller
        rw [answers_step found] at answer
        obtain rfl | later := List.mem_cons.mp answer
        · exact takes_getopt (by rw [found])
        · exact ih next.size smaller next later rfl

/-- An option with its argument, each as a word of its own. -/
def words : Char × Option CString → List CString
  | (option, none) => [['-', option]]
  | (option, some optarg) => [['-', option], optarg]

/-- Options that are written as words are answered one after the other. -/
theorem answers_words {table : Table} (noDash : table '-' = none)
    {given : List (Char × Option CString)} (takes : ∀ option ∈ given, Takes table option)
    {rest : List CString} (ends : ∀ first ∈ rest.head?, first.head? ≠ some '-') :
    answers table ⟨[], given.flatMap words ++ rest⟩ =
      (given.map fun option => .option option.1 option.2, ⟨[], rest⟩) := by
  induction given with
  | nil =>
    refine answers_stop ?_
    cases rest with
    | nil => rfl
    | cons first rest =>
      have other := ends first rfl
      simp only [List.flatMap_nil, List.nil_append, getopt]
      split
      · exact absurd rfl other
      · exact absurd rfl other
      · rfl
  | cons option given ih =>
    obtain ⟨here, later⟩ := List.forall_mem_cons.mp takes
    obtain ⟨option, optarg⟩ := option
    -- The option is not taken for the end of the options.
    have other : option ≠ '-' := by
      rintro rfl
      exact absurd (noDash.symm.trans here) nofun
    have first : ∀ arguments, getopt table ⟨[], ['-', option] :: arguments⟩ =
        (some (letter table option [] arguments).1, (letter table option [] arguments).2) := by
      intro arguments
      simp only [getopt]
      split
      · rename_i same
        exact absurd (by simpa using same) other
      · rename_i same
        obtain ⟨rfl, rfl⟩ : option = _ ∧ [] = _ := by simpa using same
        rfl
      · rename_i same
        exact absurd rfl (same option [])
    have takes_ : table option = some optarg.isSome := here
    cases optarg with
    | none =>
      have answer := first (given.flatMap words ++ rest)
      simp only [letter, takes_, Option.isSome_none] at answer
      rw [List.flatMap_cons, words, List.append_assoc]
      refine (answers_step answer).trans ?_
      rw [ih later]
      rfl
    | some optarg =>
      have answer := first (optarg :: (given.flatMap words ++ rest))
      simp only [letter, takes_, Option.isSome_some, ne_eq, not_true, if_false] at answer
      rw [List.flatMap_cons, words, List.append_assoc]
      refine (answers_step answer).trans ?_
      rw [ih later]
      rfl

end SysProg.Getopt
