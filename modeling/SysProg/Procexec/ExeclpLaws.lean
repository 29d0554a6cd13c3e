import SysProg.Procexec.Execlp

/-! Which pathnames `execlp` tries, and with which vector it executes the shell. -/

namespace SysProg.Procexec.Execlp

open SysProg.Proc SysProg.Pathname SysProg.Strings

/-- The directory that a prefix of `PATH` stands for. -/
def directoryOf (prefix_ : List UInt8) : List UInt8 :=
  if prefix_ = [] then dot else prefix_

/-- The pathnames for the prefixes in a value of `PATH`. -/
def pathnames (path filename : List UInt8) : List (List UInt8) :=
  (path.splitOn colon).map fun prefix_ => directoryOf prefix_ ++ slash :: filename

/-- A value of `PATH` without a colon is the only prefix. -/
theorem pathnames_last {prefix_ : List UInt8} (last : colon ∉ prefix_) (filename : List UInt8) :
    pathnames prefix_ filename = [directoryOf prefix_ ++ slash :: filename] := by
  rw [pathnames, List.splitOn_eq_singleton last]
  rfl

/-- The first prefix ends at the first colon. -/
theorem pathnames_append {prefix_ : List UInt8} (inner : colon ∉ prefix_)
    (rest filename : List UInt8) :
    pathnames (prefix_ ++ colon :: rest) filename =
      (directoryOf prefix_ ++ slash :: filename) :: pathnames rest filename := by
  -- The first directory of PATH ends at the first colon.
  rw [pathnames, List.splitOn_append_cons_self_of_not_mem inner]
  rfl

/-- A string that is short enough is appended. -/
theorem Buffer.strcat_eq {buffer : Buffer} {text : List UInt8}
    (fits : (buffer.text ++ text).length < buffer.capacity) :
    buffer.strcat text = some ⟨buffer.capacity, buffer.text ++ text, fits⟩ :=
  dif_pos fits

/-- There is room for the prefix in the buffer for a pathname. -/
theorem length_directoryOf {prStart : List UInt8} {prEnd : Nat} (inside : prEnd ≤ prStart.length) :
    (directoryOf (prStart.take prEnd)).length = max 1 prEnd := by
  -- An empty prefix has a dot in its place, and any other stands for itself.
  unfold directoryOf
  have length : (prStart.take prEnd).length = prEnd := List.length_take_of_le inside
  by_cases empty : prStart.take prEnd = []
  · rw [empty, List.length_nil] at length
    rw [if_pos empty, ← length]
    rfl
  · rw [if_neg empty, length]
    have some_ := List.length_pos_iff.mpr empty
    omega

/-- The buffer for a pathname is large enough. -/
theorem buildPathname_eq {prStart : List UInt8} {prEnd : Nat} (inside : prEnd ≤ prStart.length)
    (filename : List UInt8) :
    ∃ pathname, buildPathname prStart prEnd filename = some pathname ∧
      pathname.text = directoryOf (prStart.take prEnd) ++ slash :: filename := by
  have length := length_directoryOf inside
  have chosen : (if prEnd = 0 then dot else prStart.take prEnd) =
      directoryOf (prStart.take prEnd) := by
    by_cases zero : prEnd = 0
    · rw [if_pos zero, zero]
      rfl
    · have some_ : prStart.take prEnd ≠ [] := by
        rw [ne_eq, List.take_eq_nil_iff, not_or]
        exact ⟨zero, fun empty => zero (by simpa [empty] using inside)⟩
      rw [if_neg zero, directoryOf, if_neg some_]
  -- Each of the three strings fits behind what is there.
  simp only [buildPathname, chosen]
  rw [Buffer.strcat_eq (by simp only [List.nil_append]; omega), Option.bind_eq_bind,
    Option.bind_some]
  rw [Buffer.strcat_eq (by
    simp only [List.nil_append, List.length_append, List.length_singleton]; omega),
    Option.bind_some]
  rw [Buffer.strcat_eq (by
    simp only [List.nil_append, List.length_append, List.length_singleton]; omega)]
  exact ⟨_, rfl, by simp⟩

/-- The pathnames that have been tried. -/
def Outcome.tried (outcome : Outcome) : List (List UInt8) :=
  outcome.calls.map fun call => call.file.pathname

section Search

variable (system : System) (filename : List UInt8) (argv : ArgVector) (argc : Nat)
  (envp : Environ) (turn : Nat) (found : Bool)

/-- The attempt for a prefix. -/
def prefixCall (prefix_ : List UInt8) : Call :=
  attempt system turn argc ⟨directoryOf prefix_ ++ slash :: filename, argv, envp⟩

/-- The last prefix is tried, and nothing after it. -/
theorem searchLoop_last {prefix_ : List UInt8} (last : colon ∉ prefix_) :
    searchLoop system filename argv argc envp turn prefix_ found =
      match system.failure turn with
      | none => ⟨[prefixCall system filename argv argc envp turn prefix_], .replaced⟩
      | some savedErrno => ⟨[prefixCall system filename argv argc envp turn prefix_],
          .returned (if found || savedErrno = eacces then eacces else savedErrno)⟩ := by
  -- Without a colon the prefix ends with the string.
  obtain ⟨pathname, built, text⟩ := buildPathname_eq (le_refl prefix_.length) filename
  rw [List.take_length] at text
  rw [searchLoop]
  simp only [strchr_eq_none.mpr last, Option.getD_none, built, text, lt_irrefl, if_false]
  rfl

/-- Another prefix is tried, and the loop goes on behind the colon unless it has succeeded. -/
theorem searchLoop_append {prefix_ : List UInt8} (inner : colon ∉ prefix_) (rest : List UInt8) :
    searchLoop system filename argv argc envp turn (prefix_ ++ colon :: rest) found =
      match system.failure turn with
      | none => ⟨[prefixCall system filename argv argc envp turn prefix_], .replaced⟩
      | some savedErrno =>
        (searchLoop system filename argv argc envp (turn + 1) rest
          (found || savedErrno = eacces)).after
            (prefixCall system filename argv argc envp turn prefix_) := by
  -- The prefix ends at the colon, and the next one starts behind it.
  have inside : prefix_.length < (prefix_ ++ colon :: rest).length := by simp
  obtain ⟨pathname, built, text⟩ := buildPathname_eq inside.le filename
  rw [List.take_left] at text
  have behind : (prefix_ ++ colon :: rest).drop (prefix_.length + 1) = rest := by
    rw [← List.drop_drop, List.drop_left]
    rfl
  rw [searchLoop]
  simp only [strchr_append inner, Option.getD_some, built, text, if_pos inside, behind]
  rfl

/-- There is at least one prefix. -/
theorem pathnames_length_pos (path : List UInt8) : 0 < (pathnames path filename).length := by
  rw [pathnames, List.length_map]
  exact List.length_pos_iff.mpr (List.splitOn_ne_nil colon path)

/-- If all attempts fail, there is one for each prefix. -/
theorem searchLoop_fails (path : List UInt8) (errno : Nat → Errno)
    (fails : ∀ n < (pathnames path filename).length,
      system.failure (turn + n) = some (errno n)) :
    (searchLoop system filename argv argc envp turn path found).tried = pathnames path filename ∧
      (searchLoop system filename argv argc envp turn path found).result =
        .returned (if found = true ∨ ∃ n < (pathnames path filename).length, errno n = eacces
          then eacces else errno ((pathnames path filename).length - 1)) := by
  induction path using split_induction colon generalizing turn found errno with
  | last prefix_ last =>
    rw [pathnames_last last] at fails ⊢
    have failed := fails 0 Nat.one_pos
    rw [Nat.add_zero] at failed
    simp only [searchLoop_last _ _ _ _ _ _ _ last, failed]
    refine ⟨rfl, ?_⟩
    simp
  | inner prefix_ rest inner ih =>
    have some_ := pathnames_length_pos filename rest
    rw [pathnames_append inner, List.length_cons] at fails ⊢
    obtain ⟨failed, later⟩ := Nat.forall_lt_succ_left.mp fails
    rw [Nat.add_zero] at failed
    -- What is found at the first prefix is remembered for the others.
    obtain ⟨tried, result⟩ := ih (turn + 1) (found || errno 0 = eacces) (fun n => errno (n + 1))
      fun n less => by rw [Nat.add_right_comm, Nat.add_assoc]; exact later n less
    simp only [searchLoop_append _ _ _ _ _ _ _ inner, failed]
    refine ⟨congrArg (_ :: ·) tried, result.trans ?_⟩
    simp only [Nat.exists_lt_succ_left, Nat.sub_add_cancel some_, Nat.add_sub_cancel,
      Bool.or_eq_true, decide_eq_true_eq, or_assoc]

/-- The first attempt that does not fail is the last one. -/
theorem searchLoop_succeeds (path : List UInt8) {n : Nat}
    (less : n < (pathnames path filename).length)
    (before : ∀ m < n, (system.failure (turn + m)).isSome)
    (succeeds : system.failure (turn + n) = none) :
    (searchLoop system filename argv argc envp turn path found).tried =
        (pathnames path filename).take (n + 1) ∧
      (searchLoop system filename argv argc envp turn path found).result = .replaced := by
  -- The attempts before it only fail, so that the loop gets there.
  induction path using split_induction colon generalizing turn found n with
  | last prefix_ last =>
    rw [pathnames_last last] at less ⊢
    obtain rfl := Nat.lt_one_iff.mp less
    have here : system.failure turn = none := succeeds
    simp only [searchLoop_last _ _ _ _ _ _ _ last, here]
    exact ⟨rfl, trivial⟩
  | inner prefix_ rest inner ih =>
    rw [pathnames_append inner] at less ⊢
    cases n with
    | zero =>
      have here : system.failure turn = none := succeeds
      simp only [searchLoop_append _ _ _ _ _ _ _ inner, here]
      exact ⟨rfl, trivial⟩
    | succ n =>
      obtain ⟨errno, failed⟩ := Option.isSome_iff_exists.mp (before 0 n.succ_pos)
      obtain ⟨tried, result⟩ := ih (turn + 1) (found || errno = eacces)
        (Nat.lt_of_succ_lt_succ less)
        (fun m earlier => by
          rw [Nat.add_right_comm, Nat.add_assoc]
          exact before (m + 1) (Nat.succ_lt_succ earlier))
        (by rw [Nat.add_right_comm, Nat.add_assoc]; exact succeeds)
      have here : system.failure turn = some errno := failed
      simp only [searchLoop_append _ _ _ _ _ _ _ inner, here]
      exact ⟨congrArg (_ :: ·) tried, result⟩

end Search

/-- There is as much memory as `execlp` asks for. -/
def System.Supplies (system : System) : Prop :=
  system.calloc = (true, true) ∧ ∀ size, (system.realloc size).isSome

/-- With enough memory, the loop over the arguments comes to its end. -/
theorem argLoop_isSome {system : System} (supplies : system.Supplies)
    (argList : List (Option (List UInt8))) (argv : ArgVector) (argc : Nat) :
    (argLoop system argv argc argList).isSome := by
  -- Each turn of the loop gets the memory that it asks for.
  induction argList generalizing argv argc with
  | nil => rfl
  | cons next argList ih =>
    rw [argLoop]
    split
    · have resized : (resize system argv argc).isSome := by
        unfold resize
        split
        · rw [Option.isSome_map]
          exact supplies.2 _
        · rfl
      obtain ⟨argv, resized⟩ := Option.isSome_iff_exists.mp resized
      rw [resized]
      exact ih _ _
    · rfl

/-- The value of `PATH` that is used. -/
def searchPath (environ : Environ) : List UInt8 :=
  match getenv environ pathVariable with
  | none => dot
  | some path => if path = [] then dot else path

/-- A file name without a slash is searched for. -/
theorem execlp_search {system : System} (supplies : system.Supplies) {filename : List UInt8}
    (noSlash : slash ∉ filename) (args : List (List UInt8)) :
    ∃ argv argc, argumentVector system args = some (argv, argc) ∧
      execlp system filename args =
        searchLoop system filename argv argc (.ofList system.environ.entries) 0
          (searchPath system.environ) false := by
  -- The vector is built, and there is no slash in the name.
  have built : (argumentVector system args).isSome := by
    simp only [argumentVector, supplies.1, if_true]
    exact argLoop_isSome supplies _ _ _
  obtain ⟨⟨argv, argc⟩, built⟩ := Option.isSome_iff_exists.mp built
  refine ⟨argv, argc, built, ?_⟩
  simp only [execlp, built, supplies.1, if_true, strchr_eq_none.mpr noSlash]
  unfold searchPath
  cases getenv system.environ pathVariable with
  | none => rfl
  | some path => simp [List.length_eq_zero_iff]

/--
A file name without a slash is tried in each directory of `PATH`, until an attempt succeeds.

The store that `execShScript` makes outside its vector is no part of this.
-/
theorem execlp_tries {system : System} (supplies : system.Supplies) {filename : List UInt8}
    (noSlash : slash ∉ filename) (args : List (List UInt8)) :
    (∀ errno : Nat → Errno,
      (∀ n < (pathnames (searchPath system.environ) filename).length,
        system.failure n = some (errno n)) →
          (execlp system filename args).tried = pathnames (searchPath system.environ) filename ∧
            (execlp system filename args).result = .returned
              (if ∃ n < (pathnames (searchPath system.environ) filename).length, errno n = eacces
                then eacces
                else errno ((pathnames (searchPath system.environ) filename).length - 1))) ∧
      ∀ n < (pathnames (searchPath system.environ) filename).length,
        (∀ m < n, (system.failure m).isSome) → system.failure n = none →
          (execlp system filename args).tried =
              (pathnames (searchPath system.environ) filename).take (n + 1) ∧
            (execlp system filename args).result = .replaced := by
  -- Both parts are those of the loop, from the first prefix on.
  obtain ⟨argv, argc, -, searched⟩ := execlp_search supplies noSlash args
  rw [searched]
  refine ⟨fun errno fails => ?_, fun n less before succeeds => ?_⟩
  · have ended := searchLoop_fails system filename argv argc
      (.ofList system.environ.entries) 0 false (searchPath system.environ) errno
      (fun n less => by rw [Nat.zero_add]; exact fails n less)
    simpa only [Bool.false_eq_true, false_or] using ended
  · exact searchLoop_succeeds system filename argv argc (.ofList system.environ.entries) 0 false
      (searchPath system.environ) less
      (fun m earlier => by rw [Nat.zero_add]; exact before m earlier)
      (by rw [Nat.zero_add]; exact succeeds)

/-- The search finds the second file to be no program, and there is no shell. -/
def noShell : System where
  environ := .ofList [[80, 65, 84, 72, 61, 97, 58, 58, 98, 58]]
  calloc := (true, true)
  realloc _ := some fun _ => none
  stack _ := none
  execve turn := if turn = 1 then some enoexec else some 2
  shell _ := false

/-- `PATH` is `"a::b:"`, so that `"f"` is tried as `"a/f"`, `"./f"`, `"b/f"` and `"./f"`. -/
theorem execlp_tries_noShell :
    (execlp noShell [102] [[102]]).tried = [[97, 47, 102], [46, 47, 102], [98, 47, 102],
      [46, 47, 102]] ∧ (execlp noShell [102] [[102]]).result = .returned 2 := by
  -- PATH has four entries, two of them empty.
  have names : pathnames (searchPath noShell.environ) [102] =
      [[97, 47, 102], [46, 47, 102], [98, 47, 102], [46, 47, 102]] := by decide
  have supplies : noShell.Supplies := ⟨rfl, fun _ => rfl⟩
  obtain ⟨tried, result⟩ := (execlp_tries supplies (by decide : slash ∉ [102]) [[102]]).1
    (fun n => if n = 1 then enoexec else 2) (by rw [names]; decide)
  rw [names] at tried result
  exact ⟨tried, result⟩

/-- A store inside a vector. -/
theorem ArgVector.store_inside {vector : ArgVector} {index : Nat}
    (inside : index < vector.cells.length) (pointer : Option (List UInt8)) :
    vector.store index pointer = ⟨vector.cells.set index pointer, vector.outside⟩ :=
  if_pos inside

/-- A vector for so many arguments is being filled. -/
structure Filled (args : List (List UInt8)) (argv : ArgVector) (argc : Nat) : Prop where
  room : argc < argv.cells.length
  inside : argv.outside = []
  front : argv.cells.take argc = args.map some

/-- The vector grows before it is full, and what is in it stays there. -/
theorem Filled.resize {system : System} {args : List (List UInt8)} {argv grown : ArgVector}
    {argc : Nat} (filled : Filled args argv argc)
    (resized : Execlp.resize system argv argc = some grown) :
    Filled args grown argc ∧ argc + 1 < grown.cells.length := by
  have room := filled.room
  unfold Execlp.resize at resized
  split at resized
  -- The new cells are behind those that are there.
  · obtain ⟨cells, -, rfl⟩ := Option.map_eq_some_iff.mp resized
    have length : (argv.cells ++ (List.range 100).map cells).length =
        argv.cells.length + 100 := by simp
    refine ⟨⟨?_, filled.inside, ?_⟩, ?_⟩
    · show _ < (argv.cells ++ _).length
      omega
    · rw [List.take_append_of_le_length room.le]
      exact filled.front
    · show _ < (argv.cells ++ _).length
      omega
  · rename_i enough
    obtain rfl := Option.some.inj resized
    exact ⟨filled, by omega⟩

/-- The next argument is stored behind the others. -/
theorem Filled.take_store {args : List (List UInt8)} {argv : ArgVector} {argc : Nat}
    (filled : Filled args argv argc) (pointer : Option (List UInt8)) :
    (argv.store argc pointer).cells.take (argc + 1) = args.map some ++ [pointer] := by
  rw [ArgVector.store_inside filled.room, List.take_succ_eq_append_getElem (by simp [filled.room]),
    List.take_set_of_le le_rfl, filled.front, List.getElem_set_self]

/-- There is an argument before the place for the next one. -/
theorem Filled.goesOn {args : List (List UInt8)} {argv : ArgVector}
    (filled : Filled args argv args.length) (some_ : args ≠ []) :
    argv.cells[args.length - 1]?.join.isSome := by
  -- The last argument that has been stored is not the null pointer.
  have less : args.length - 1 < args.length := by
    have := List.length_pos_iff.mpr some_
    omega
  have at_ := congrArg (fun cells => cells[args.length - 1]?) filled.front
  simp only [List.getElem?_take_of_lt less, List.getElem?_map,
    List.getElem?_eq_getElem less] at at_
  rw [at_]
  rfl

/-- The loop stops behind the null pointer, which it counts. -/
theorem argLoop_eq {system : System} {args rest : List (List UInt8)} {argv filled : ArgVector}
    {count : Nat} (some_ : args ≠ []) (before : Filled args argv args.length)
    (ran : argLoop system argv args.length (rest.map some ++ [none]) = some (filled, count)) :
    count = args.length + rest.length + 1 ∧ count < filled.cells.length ∧ filled.outside = [] ∧
      filled.cells.take count = (args ++ rest).map some ++ [none] := by
  -- The arguments move over from the list to the vector.
  induction rest generalizing args argv with
  -- The null pointer is stored, and the loop is over.
  | nil =>
    rw [List.map_nil, List.nil_append, argLoop, if_pos (before.goesOn some_),
      Option.bind_eq_some_iff] at ran
    obtain ⟨grown, resized, stored⟩ := ran
    obtain ⟨still, room⟩ := before.resize resized
    simp only [argLoop, Option.some.injEq, Prod.mk.injEq] at stored
    obtain ⟨rfl, rfl⟩ := stored
    refine ⟨rfl, ?_, ?_, ?_⟩
    · rw [ArgVector.store_inside still.room, List.length_set]
      exact room
    · rw [ArgVector.store_inside still.room]
      exact still.inside
    · rw [still.take_store, List.append_nil]
  -- Another argument is stored, and the vector still has room.
  | cons next rest ih =>
    rw [List.map_cons, List.cons_append, argLoop, if_pos (before.goesOn some_),
      Option.bind_eq_some_iff] at ran
    obtain ⟨grown, resized, remaining⟩ := ran
    obtain ⟨still, room⟩ := before.resize resized
    have length : (args ++ [next]).length = args.length + 1 := by simp
    have after : Filled (args ++ [next]) (grown.store args.length (some next))
        (args ++ [next]).length := by
      refine ⟨?_, ?_, ?_⟩
      · rw [length, ArgVector.store_inside still.room, List.length_set]
        exact room
      · rw [ArgVector.store_inside still.room]
        exact still.inside
      · rw [length, still.take_store, List.map_append]
        rfl
    rw [← length] at remaining
    obtain ⟨counted, rest_⟩ := ih (by simp) after remaining
    refine ⟨?_, ?_⟩
    · rw [counted, length, List.length_cons]
      omega
    · rwa [List.append_assoc] at rest_

/-- All arguments and the null pointer are in `argv`, and `argc` counts them all. -/
theorem argumentVector_eq {system : System} {args : List (List UInt8)} {argv : ArgVector}
    {argc : Nat} (built : argumentVector system args = some (argv, argc)) :
    argc = args.length + 1 ∧ argc < argv.cells.length ∧ argv.outside = [] ∧
      argv.cells.take argc = args.map some ++ [none] := by
  unfold argumentVector at built
  split at built
  · cases args with
    | nil =>
      -- The first pointer is the null pointer.
      obtain ⟨rfl, rfl⟩ := Prod.mk.inj (Option.some.inj built)
      exact ⟨rfl, by decide, rfl, rfl⟩
    | cons arg rest =>
      have before : Filled [arg]
          (ArgVector.store ⟨List.replicate 100 none, []⟩ 0 (some arg)) 1 := by
        rw [ArgVector.store_inside (by simp)]
        exact ⟨by simp, rfl, rfl⟩
      obtain ⟨counted, facts⟩ := argLoop_eq (List.cons_ne_nil arg []) before built
      refine ⟨?_, facts⟩
      rw [counted, List.length_singleton, List.tail_cons, List.length_cons]
      omega
  · exact nomatch built

/-- The loop of `execShScript` copies the pointers to the places behind the first. -/
theorem copyLoop_eq {first cells : List (Option (List UInt8))} {argc n : Nat}
    (size : first.length = argc + 1) (inside : n ≤ argc) (enough : argc < cells.length) :
    ∃ rest, (List.range n).foldl (fun shArgv j => ArgVector.store shArgv (j + 1) cells[j]?.join)
        (ArgVector.store ⟨first, []⟩ 0 (some shellPath)) =
          ⟨some shellPath :: cells.take n ++ rest, []⟩ ∧ rest.length = argc - n := by
  induction n with
  -- At first there is nothing but the pathname of the shell.
  | zero =>
    rw [ArgVector.store_inside (by simp [size])]
    cases first with
    | nil => exact nomatch size
    | cons cell first => exact ⟨first, rfl, by simpa using size⟩
  | succ n ih =>
    obtain ⟨rest, copied, left⟩ := ih (by omega)
    cases rest with
    | nil => simp at left; omega
    | cons cell rest =>
      refine ⟨rest, ?_, by simp at left; omega⟩
      have length : (some shellPath :: cells.take n).length = n + 1 := by simp; omega
      -- The cell behind those that have been copied gets the next pointer.
      rw [List.range_succ, List.foldl_append, copied, List.foldl_cons, List.foldl_nil,
        ArgVector.store_inside (by rw [List.length_append, length, List.length_cons]; omega)]
      have set_ : (some shellPath :: cells.take n ++ cell :: rest).set (n + 1) cells[n]?.join =
          some shellPath :: cells.take (n + 1) ++ rest := by
        rw [List.set_append_right _ _ length.le, length, Nat.sub_self, List.set_cons_zero,
          List.getElem?_eq_getElem (by omega), List.take_succ_eq_append_getElem (by omega)]
        simp only [List.cons_append, List.append_assoc, List.nil_append]
        rfl
      exact congrArg (ArgVector.mk · []) set_

/-- The last pointer is stored behind the vector, which holds all that comes before it. -/
theorem execShScript_argv {system : System} {argc : Nat} {argv : ArgVector}
    (enough : argc < argv.cells.length) (envp : Environ) :
    (execShScript system argc argv envp).argv =
      ⟨some shellPath :: argv.cells.take argc, [argc + 1]⟩ := by
  -- The last turn of the loop is the one for the null pointer behind `argc`.
  have size : ((List.range (argc + 1)).map system.stack).length = argc + 1 := by simp
  obtain ⟨rest, copied, left⟩ := copyLoop_eq size le_rfl enough
  obtain rfl : rest = [] := List.length_eq_zero_iff.mp (by omega)
  have full : ¬ argc + 1 < (some shellPath :: argv.cells.take argc).length := by simp
  have loop : ∀ shArgv : ArgVector,
      (List.range (argc + 1)).foldl
        (fun shArgv j => shArgv.store (j + 1) argv.cells[j]?.join) shArgv =
          ((List.range argc).foldl (fun shArgv j => shArgv.store (j + 1) argv.cells[j]?.join)
            shArgv).store (argc + 1) argv.cells[argc]?.join := by
    intro shArgv
    rw [List.range_succ, List.foldl_append]
    rfl
  simp only [execShScript]
  rw [loop, copied, List.append_nil]
  exact if_neg full

/-- What the shell should be executed with for a file that is a script. -/
def ProperScript (system : System) (args : List (List UInt8)) (file script : Exec) : Prop :=
  script.pathname = shellPath ∧
    script.argv.cells = (shellPath :: file.pathname :: args.tail).map some ++ [none] ∧
      script.envp.entries = system.environ.entries ∧ script.argv.outside = []

/-- Every attempt is made with the same vector and the same environment. -/
theorem mem_searchLoop {system : System} {filename : List UInt8} {argv : ArgVector} {argc : Nat}
    {envp : Environ} {turn : Nat} {path : List UInt8} {found : Bool} {call : Call}
    (mem : call ∈ (searchLoop system filename argv argc envp turn path found).calls) :
    ∃ turn pathname, call = attempt system turn argc ⟨pathname, argv, envp⟩ := by
  -- Every turn of the loop makes the attempt for its own prefix.
  induction path using split_induction colon generalizing turn found with
  | last prefix_ last =>
    rw [searchLoop_last _ _ _ _ _ _ _ last] at mem
    split at mem
    · exact ⟨_, _, List.mem_singleton.mp mem⟩
    · exact ⟨_, _, List.mem_singleton.mp mem⟩
  | inner prefix_ rest inner ih =>
    rw [searchLoop_append _ _ _ _ _ _ _ inner] at mem
    split at mem
    · exact ⟨_, _, List.mem_singleton.mp mem⟩
    · obtain rfl | later := List.mem_cons.mp mem
      · exact ⟨_, _, rfl⟩
      · exact ih later

/-- So is every attempt of `execlp`, whose vector is made of the arguments. -/
theorem mem_execlp {system : System} {filename : List UInt8} {args : List (List UInt8)}
    {call : Call} (mem : call ∈ (execlp system filename args).calls) :
    ∃ argv argc turn pathname, argumentVector system args = some (argv, argc) ∧
      call = attempt system turn argc ⟨pathname, argv, .ofList system.environ.entries⟩ := by
  unfold execlp at mem
  split at mem
  · exact nomatch mem
  · rename_i argv argc built
    split at mem
    · split at mem
      · -- A pathname is tried as it is.
        split at mem
        · exact ⟨argv, argc, _, _, built, List.mem_singleton.mp mem⟩
        · exact ⟨argv, argc, _, _, built, List.mem_singleton.mp mem⟩
      · obtain ⟨turn, pathname, same⟩ := mem_searchLoop mem
        exact ⟨argv, argc, turn, pathname, built, same⟩
    · exact nomatch mem

/-- The shell gets all arguments as they are, and the last pointer is stored behind its vector. -/
theorem script_argv {system : System} {filename : List UInt8} {args : List (List UInt8)}
    {call : Call} (mem : call ∈ (execlp system filename args).calls) {script : Exec}
    (executed : call.script = some script) :
    script.argv = ⟨(shellPath :: args).map some ++ [none], [args.length + 2]⟩ := by
  -- The vector for the shell is made of `argv`, and of nothing else.
  obtain ⟨argv, argc, turn, pathname, built, rfl⟩ := mem_execlp mem
  obtain ⟨counted, room, -, front⟩ := argumentVector_eq built
  obtain ⟨-, same⟩ := Option.ite_none_right_eq_some.mp executed
  obtain rfl := Option.some.inj same
  rw [execShScript_argv room, front, counted]
  rfl

/--
The vector for the shell is never what it should be.

One store is not inside it, and it holds the first argument instead of the pathname.
-/
theorem execlp_never_properScript {system : System} {filename : List UInt8}
    {args : List (List UInt8)} {call : Call}
    (mem : call ∈ (execlp system filename args).calls) {script : Exec}
    (executed : call.script = some script) :
    ¬ ProperScript system args call.file script ∧ script.argv.outside = [args.length + 2] ∧
      (script.argv.cells = (shellPath :: call.file.pathname :: args.tail).map some ++ [none] ↔
        args.head? = some call.file.pathname) := by
  -- The vectors differ in the second pointer, unless the two strings are the same.
  rw [ProperScript, script_argv mem executed]
  refine ⟨(fun proper => nomatch proper.2.2.2), rfl, ?_⟩
  cases args with
  | nil => simp
  | cons arg rest => simp

/-- No file is a program. -/
def allScripts : System :=
  { noShell with execve := fun _ => some enoexec }

/-- The attempt to execute `"/f"` with the argument `"f"`. -/
def slashCall : Call :=
  attempt allScripts 0 2 ⟨[47, 102], ⟨some [102] :: List.replicate 99 none, []⟩,
    .ofList allScripts.environ.entries⟩

/-- It is the only one. -/
theorem slashCall_mem : slashCall ∈ (execlp allScripts [47, 102] [[102]]).calls :=
  List.mem_singleton.mpr rfl

/-- The shell is executed with `"f"`, and not with the pathname of the script. -/
theorem execlp_never_properScript_slash :
    ∃ script, slashCall.script = some script ∧
      ¬ ProperScript allScripts [[102]] slashCall.file script ∧ script.argv.outside = [3] :=
  ⟨_, rfl, (execlp_never_properScript slashCall_mem rfl).1,
    (execlp_never_properScript slashCall_mem rfl).2.1⟩

/-- Not every script is executed with the vector that it should have. -/
theorem execlp_not_properScript :
    ¬ ∀ (system : System) (filename : List UInt8) (args : List (List UInt8)) (call : Call)
      (script : Exec), args ≠ [] → call ∈ (execlp system filename args).calls →
        call.script = some script → ProperScript system args call.file script := by
  intro promised
  -- The null pointer is stored behind the end of the vector of the shell.
  have proper := promised allScripts [47, 102] [[102]] slashCall _ (by decide) slashCall_mem rfl
  rw [ProperScript, script_argv slashCall_mem rfl] at proper
  exact nomatch proper.2.2.2

end SysProg.Procexec.Execlp
