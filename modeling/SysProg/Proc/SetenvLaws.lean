import SysProg.Proc.Setenv

/-! What `setenv` and `unsetenv` make of the environment, and when a failure has lost an entry. -/

namespace SysProg.Proc

/-- An entry whose text starts with a name followed by `'='`. -/
def IsFor (name entry : List UInt8) : Prop :=
  name ++ [equalsSign] <+: entry

instance (name : List UInt8) : DecidablePred (IsFor name) :=
  fun entry => inferInstanceAs (Decidable (name ++ [equalsSign] <+: entry))

/-- A name that both functions accept. -/
def ValidName (name : List UInt8) : Prop :=
  name ≠ [] ∧ equalsSign ∉ name

instance (name : List UInt8) : Decidable (ValidName name) :=
  inferInstanceAs (Decidable (_ ∧ _))

/-- The entries for a name. -/
def entriesFor (name : List UInt8) (environ : Environ) : List (List UInt8) :=
  environ.entries.filter fun entry => IsFor name entry

/-- All other entries. -/
def otherEntries (name : List UInt8) (environ : Environ) : List (List UInt8) :=
  environ.entries.filter fun entry => ¬ IsFor name entry

/-- The comparison in the loop finds the entries for the name. -/
theorem isFor_iff {name entry : List UInt8} : isFor name entry ↔ IsFor name entry := by
  simp only [isFor, IsFor, Bool.and_eq_true, decide_eq_true_eq]
  constructor
  · rintro ⟨same, sign⟩
    -- The entry is the name, the sign, and what comes behind them.
    have split := List.take_append_drop name.length entry
    rw [List.drop_eq_getElem?_toList_append, sign, same] at split
    exact ⟨entry.drop (name.length + 1), by rw [← split]; simp⟩
  · rintro ⟨rest, rfl⟩
    simp

/-- A name is accepted unless the test finds it invalid. -/
theorem invalidName_eq_false {name : List UInt8} :
    invalidName (some name) = false ↔ ValidName name := by
  simp [invalidName, ValidName]

/-- The loop removes every entry for the name and leaves the others in order. -/
theorem entriesOf_unsetFrom (name : List UInt8) (cells : List (Option (List UInt8))) :
    NullTerminated.entriesOf (unsetFrom name cells) =
      (NullTerminated.entriesOf cells).filter fun entry => ¬ IsFor name entry := by
  -- The induction follows the pointer, which stays where an entry has been removed.
  fun_induction unsetFrom name cells with
  | case1 entry rest found ih =>
    rw [ih, NullTerminated.entriesOf_shiftBack, NullTerminated.entriesOf,
      List.filter_cons_of_neg (by simpa using isFor_iff.mp found)]
  -- An entry for another name stays, and the pointer goes on.
  | case2 entry rest other ih =>
    rw [NullTerminated.entriesOf, NullTerminated.entriesOf, ih,
      List.filter_cons_of_pos (by simpa using fun found => other (isFor_iff.mpr found))]
  -- At the null pointer there are no more entries.
  | case3 cells none_ =>
    cases cells with
    | nil => rfl
    | cons cell rest =>
      cases cell with
      | none => rfl
      | some entry => exact absurd rfl (none_ entry rest)

/-- The test finds a name that is not valid. -/
theorem invalidName_eq_true {name : List UInt8} :
    invalidName (some name) = true ↔ ¬ ValidName name := by
  rw [← invalidName_eq_false, Bool.not_eq_false]

/-- `unsetenv` removes the entries for the name. -/
theorem entries_unset (environ : Environ) (name : List UInt8) :
    (environ.unset name).entries = otherEntries name environ :=
  entriesOf_unsetFrom name environ.cells

/-- `getenv` finds a value if and only if there is an entry for the name. -/
theorem getenv_isSome {environ : Environ} {name : List UInt8} :
    (getenv environ name).isSome ↔ entriesFor name environ ≠ [] := by
  simp only [getenv, Option.isSome_map, List.find?_isSome, entriesFor, ne_eq,
    List.filter_eq_nil_iff, isFor_iff, decide_eq_true_eq, not_forall, not_not, exists_prop]

/-- The name in an entry that is made of a name without `'='` and a value. -/
theorem nameOf_append {name : List UInt8} (noSign : equalsSign ∉ name) (value : List UInt8) :
    nameOf (name ++ equalsSign :: value) = name := by
  rw [nameOf, List.takeWhile_append_of_pos, List.takeWhile_cons_of_neg (by simp), List.append_nil]
  intro char mem
  simpa using fun same : char = equalsSign => noSign (same ▸ mem)

/-- `putenv` adds an entry for a name that has none. -/
theorem entries_putenv {environ : Environ} {name : List UInt8} (valid : ValidName name)
    (absent : entriesFor name environ = []) (place : Nat) (value : List UInt8) :
    (putenv environ place (name ++ equalsSign :: value)).entries =
      environ.entries.take place ++
        (name ++ equalsSign :: value) :: environ.entries.drop place := by
  -- No entry is replaced, because none is for the name.
  have nowhere : environ.entries.findIdx? (isFor name) = none := by
    rw [List.findIdx?_eq_none_iff]
    intro entry mem
    have other := List.filter_eq_nil_iff.mp absent entry mem
    rw [decide_eq_true_eq] at other
    exact Bool.eq_false_iff.mpr fun found => other (isFor_iff.mp found)
  rw [putenv, nameOf_append valid.2, nowhere]
  exact NullTerminated.entries_ofList _

/-- A null pointer or a name that is not valid. -/
def Unacceptable (name : Option (List UInt8)) : Prop :=
  ∀ bytes ∈ name, ¬ ValidName bytes

/-- An invalid name is refused by `unsetenv`. -/
theorem unsetenv_refuses {name : Option (List UInt8)} (unacceptable : Unacceptable name)
    (process : Process) :
    unsetenv process name = (-1, { process with errno := some .einval }) := by
  cases name with
  | none => rfl
  | some bytes => exact if_pos (invalidName_eq_true.mpr (unacceptable bytes rfl))

/-- An invalid name or a null value is refused by `setenv`. -/
theorem setenv_refuses {name value : Option (List UInt8)}
    (unacceptable : Unacceptable name ∨ value = none) (library : Library) (process : Process)
    (overwrite : Int) :
    setenv library process name value overwrite =
      (-1, { process with errno := some .einval }) := by
  -- Both tests come before anything else.
  cases name with
  | none => rfl
  | some bytes =>
    cases value with
    | none => rfl
    | some value =>
      have invalid := unacceptable.resolve_right nofun bytes rfl
      exact if_pos (invalidName_eq_true.mpr invalid)

/-- A valid name is unset. -/
theorem unsetenv_valid {name : List UInt8} (valid : ValidName name) (process : Process) :
    unsetenv process (some name) = (0, { process with environ := process.environ.unset name }) := by
  -- The name is valid, so the check lets it pass.
  have accepted : ¬ invalidName (some name) = true := by
    rw [invalidName_eq_false.mpr valid]
    exact nofun
  exact if_neg accepted

/-- An entry that may not be overwritten is kept. -/
theorem setenv_keeps {name : List UInt8} (valid : ValidName name) {process : Process}
    (present : entriesFor name process.environ ≠ []) (library : Library) (value : List UInt8) :
    setenv library process (some name) (some value) 0 = (0, process) := by
  simp [setenv, invalidName_eq_false.mpr valid, getenv_isSome.mpr present]

/-- Otherwise the entries for the name are removed before anything can fail. -/
theorem setenv_replaces {name : List UInt8} (valid : ValidName name) {process : Process}
    {overwrite : Int} (mayWrite : overwrite ≠ 0 ∨ entriesFor name process.environ = [])
    (library : Library) (value : List UInt8) :
    setenv library process (some name) (some value) overwrite =
      if library.malloc then
        match library.putenv with
        | none => (-1, ⟨process.environ.unset name, some .enomem⟩)
        | some place =>
          (0, ⟨putenv (process.environ.unset name) place (name ++ equalsSign :: value),
            process.errno⟩)
      else (-1, ⟨process.environ.unset name, some .enomem⟩) := by
  -- The test for an entry that may not be overwritten fails.
  have goesOn : ((getenv process.environ name).isSome && decide (overwrite = 0)) = false := by
    rw [Bool.and_eq_false_iff, decide_eq_false_iff_not, Bool.eq_false_iff, ne_eq, getenv_isSome]
    exact mayWrite.symm.imp_left not_not.mpr
  simp only [setenv, invalidName_eq_false.mpr valid, goesOn, unsetenv_valid valid,
    Bool.false_eq_true, if_false]
  cases library.malloc <;> rfl

/-- There are no entries left for a name that has been removed. -/
theorem entriesFor_unset (environ : Environ) (name : List UInt8) :
    entriesFor name (environ.unset name) = [] := by
  rw [entriesFor, entries_unset, otherEntries, List.filter_filter, List.filter_eq_nil_iff]
  simp

/-- Removing the entries for a name leaves the others. -/
theorem otherEntries_unset (environ : Environ) (name : List UInt8) :
    otherEntries name (environ.unset name) = otherEntries name environ := by
  rw [otherEntries, entries_unset, otherEntries, List.filter_filter]
  simp

/-- The entry that is stored is the only one for its name. -/
theorem entriesFor_putenv {environ : Environ} {name : List UInt8} (valid : ValidName name)
    (absent : entriesFor name environ = []) (place : Nat) (value : List UInt8) :
    entriesFor name (putenv environ place (name ++ equalsSign :: value)) =
      [name ++ equalsSign :: value] := by
  -- The environment has no entry for the name before or behind the new one.
  have own : IsFor name (name ++ equalsSign :: value) := ⟨value, by simp⟩
  have both := absent
  rw [entriesFor, ← List.take_append_drop place environ.entries, List.filter_append,
    List.append_eq_nil_iff] at both
  rw [entriesFor, entries_putenv valid absent, List.filter_append, List.filter_cons, both.1,
    both.2, if_pos (decide_eq_true own), List.nil_append]

/-- The others are as they were. -/
theorem otherEntries_putenv {environ : Environ} {name : List UInt8} (valid : ValidName name)
    (absent : entriesFor name environ = []) (place : Nat) (value : List UInt8) :
    otherEntries name (putenv environ place (name ++ equalsSign :: value)) =
      otherEntries name environ := by
  -- The new entry is none of the others.
  have own : IsFor name (name ++ equalsSign :: value) := ⟨value, by simp⟩
  rw [otherEntries, entries_putenv valid absent, List.filter_append,
    List.filter_cons_of_neg (by simpa using own), ← List.filter_append, List.take_append_drop,
    otherEntries]

/--
What `unsetenv` and `setenv` do, if `malloc` and `putenv` succeed.

The new entry may be placed anywhere, which is up to `putenv`.
-/
theorem setenv_unsetenv (process : Process) :
    (∀ name, ValidName name →
      (unsetenv process (some name)).1 = 0 ∧
        (unsetenv process (some name)).2.environ.entries =
          process.environ.entries.filter fun entry => ¬ IsFor name entry) ∧
    (∀ name value overwrite place, ValidName name →
      overwrite ≠ 0 ∨ entriesFor name process.environ = [] →
        ∃ after, setenv ⟨true, some place⟩ process (some name) (some value) overwrite =
            (0, after) ∧
          entriesFor name after.environ = [name ++ equalsSign :: value] ∧
            otherEntries name after.environ = otherEntries name process.environ) ∧
    (∀ library name value, ValidName name → entriesFor name process.environ ≠ [] →
      setenv library process (some name) (some value) 0 = (0, process)) ∧
    (∀ library name value overwrite, Unacceptable name →
      (unsetenv process name).1 = -1 ∧
        (unsetenv process name).2.environ = process.environ ∧
          (setenv library process name value overwrite).1 = -1 ∧
            (setenv library process name value overwrite).2.environ = process.environ) := by
  refine ⟨fun name valid => ?_, fun name value overwrite place valid mayWrite => ?_,
    fun library name value valid present => setenv_keeps valid present library value,
    fun library name value overwrite unacceptable => ?_⟩
  · rw [unsetenv_valid valid]
    exact ⟨rfl, entries_unset process.environ name⟩
  -- The new entry is stored where there is no other for the name any more.
  · refine ⟨_, setenv_replaces valid mayWrite _ value, ?_, ?_⟩
    · exact entriesFor_putenv valid (entriesFor_unset _ _) place value
    · rw [← otherEntries_unset process.environ name]
      exact otherEntries_putenv valid (entriesFor_unset _ _) place value
  · rw [unsetenv_refuses unacceptable, setenv_refuses (.inl unacceptable)]
    exact ⟨rfl, rfl, rfl, rfl⟩

/-- An entry for the name is removed, and no new one is stored. -/
def Loses (library : Library) (process : Process) (name value : Option (List UInt8))
    (overwrite : Int) : Prop :=
  value ≠ none ∧ overwrite ≠ 0 ∧ ¬ (library.malloc ∧ library.putenv.isSome) ∧
    ∃ bytes ∈ name, ValidName bytes ∧ entriesFor bytes process.environ ≠ []

/-- An environment in which `A` is set twice, and `AB` once. -/
def twice : Process where
  environ := .ofList [[65, 61, 49], [65, 66, 61, 50], [65, 61, 51]]
  errno := none

/-- A new value for `A` takes the place of both entries, and that of `AB` stays. -/
theorem setenv_unsetenv_twice :
    (∃ after, setenv ⟨true, some 1⟩ twice (some [65]) (some [52]) 1 = (0, after) ∧
      entriesFor [65] after.environ = [[65, 61, 52]] ∧
        otherEntries [65] after.environ = [[65, 66, 61, 50]]) ∧
      (unsetenv twice (some [65])).2.environ.entries = [[65, 66, 61, 50]] := by
  have valid : ValidName [65] := by decide
  -- The variable is defined twice, and another one has it as the front of its name.
  have others : twice.environ.entries.filter (fun entry => ¬ IsFor [65] entry) =
      [[65, 66, 61, 50]] := by decide
  obtain ⟨unset, store, -⟩ := setenv_unsetenv twice
  obtain ⟨after, done, own, rest⟩ := store [65] [52] 1 1 valid (.inl (by decide))
  exact ⟨⟨after, done, own, rest.trans others⟩, (unset [65] valid).2.trans others⟩

/-- Nothing changes where there is nothing to remove. -/
theorem otherEntries_eq_iff {environ : Environ} {name : List UInt8} :
    otherEntries name environ = environ.entries ↔ entriesFor name environ = [] := by
  rw [otherEntries, entriesFor, List.filter_eq_self, List.filter_eq_nil_iff]
  simp

/-- If `malloc` or `putenv` fails, the entries for the name are gone. -/
theorem setenv_fails {name : List UInt8} (valid : ValidName name) {process : Process}
    {overwrite : Int} (mayWrite : overwrite ≠ 0 ∨ entriesFor name process.environ = [])
    {library : Library} (fails : ¬ (library.malloc ∧ library.putenv.isSome)) (value : List UInt8) :
    setenv library process (some name) (some value) overwrite =
      (-1, ⟨process.environ.unset name, some .enomem⟩) := by
  -- Either there is no memory, or `putenv` fails.
  rw [setenv_replaces valid mayWrite]
  obtain ⟨malloc, putenv_⟩ := library
  cases malloc with
  | false => rfl
  | true =>
    cases putenv_ with
    | none => rfl
    | some place => exact absurd ⟨rfl, rfl⟩ fails

/-- `setenv` leaves the environment as it was when it fails, unless it loses an entry. -/
theorem setenv_atomic_iff (library : Library) (process : Process)
    (name value : Option (List UInt8)) (overwrite : Int) :
    ((setenv library process name value overwrite).1 = -1 →
      (setenv library process name value overwrite).2.environ.entries =
        process.environ.entries) ↔
          ¬ Loses library process name value overwrite := by
  by_cases refused : Unacceptable name ∨ value = none
  · -- An invalid argument is found before anything is removed.
    rw [setenv_refuses refused]
    refine ⟨fun _ ⟨given, _, _, bytes, mem, valid, _⟩ => ?_, fun _ _ => rfl⟩
    exact refused.elim (fun unacceptable => unacceptable bytes mem valid) given
  · rw [not_or, Unacceptable] at refused
    simp only [not_forall, not_not] at refused
    obtain ⟨⟨bytes, rfl, valid⟩, given⟩ := refused
    obtain ⟨value, rfl⟩ := Option.ne_none_iff_exists'.mp given
    by_cases mayWrite : overwrite ≠ 0 ∨ entriesFor bytes process.environ = []
    · by_cases fails : library.malloc ∧ library.putenv.isSome
      · -- Nothing fails.
        obtain ⟨place, stored⟩ := Option.isSome_iff_exists.mp fails.2
        rw [setenv_replaces valid mayWrite, if_pos fails.1, stored]
        exact ⟨fun _ loses => loses.2.2.1 fails, fun _ failed =>
          absurd (show (0 : Int) = -1 from failed) (by decide)⟩
      -- What is lost is what `unsetenv` has removed.
      · rw [setenv_fails valid mayWrite fails]
        show (_ → (process.environ.unset bytes).entries = _) ↔ _
        rw [entries_unset, otherEntries_eq_iff]
        constructor
        · intro unchanged loses
          obtain ⟨_, _, _, other, mem, _, present⟩ := loses
          obtain rfl := Option.some.inj mem
          exact present (unchanged rfl)
        · intro kept _
          by_contra present
          exact kept ⟨given, mayWrite.resolve_right present, fails, bytes, rfl, valid, present⟩
    · -- The entry is kept.
      rw [not_or, not_not] at mayWrite
      obtain ⟨rfl, present⟩ := mayWrite
      rw [setenv_keeps valid present]
      exact ⟨fun _ loses => loses.2.1 rfl, fun _ failed =>
        absurd (show (0 : Int) = -1 from failed) (by decide)⟩

/-- `A` and what it stood for is gone when there is no memory for its new value. -/
theorem setenv_not_atomic :
    ¬ ∀ (library : Library) (process : Process) (name value : Option (List UInt8))
      (overwrite : Int), (setenv library process name value overwrite).1 = -1 →
        (setenv library process name value overwrite).2.environ.entries =
          process.environ.entries := by
  -- There is no memory for the new entry.
  intro promised
  have valid : ValidName [65] := by decide
  have kept := promised ⟨false, none⟩ twice (some [65]) (some []) 1
  rw [setenv_fails valid (.inl (by decide)) (by decide)] at kept
  have unchanged := kept rfl
  rw [entries_unset, otherEntries, twice, NullTerminated.entries_ofList] at unchanged
  exact absurd unchanged (by decide)

end SysProg.Proc
