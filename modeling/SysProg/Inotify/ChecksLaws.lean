import SysProg.Inotify.Checks

/-! When the two checks of the cache agree. -/

namespace SysProg.Inotify

/-- A slot holds an item. -/
def Slot.Live (slot : Slot) : Prop :=
  slot.wd ≥ 0

instance (slot : Slot) : Decidable slot.Live :=
  inferInstanceAs (Decidable (slot.wd ≥ 0))

/-- The pathname in a slot is that of a file that is not a directory. -/
def Slot.Misplaced (lstat : List UInt8 → Option Stat) (slot : Slot) : Prop :=
  ∃ sb, lstat slot.path.val = some sb ∧ sb.isDir = false

/-- What the two checks have in common, if they agree on a cache. -/
structure Agree (lstat : List UInt8 → Option Stat) (cache : Cache) : Prop where
  /-- They look up the same slots, count the same failures, and come to the same end. -/
  same : ∀ sb, checkCacheConsistency lstat sb cache =
    (checkAllCachedPathnamesExist lstat cache).toCheck
  /-- They look up live slots only. -/
  live : ∀ sb, ∀ j ∈ (checkCacheConsistency lstat sb cache).inspected,
    ∃ slot, cache[j]? = some slot ∧ slot.Live
  /-- They exit exactly if there is a live slot with another kind of file. -/
  exits : ∀ sb, (checkCacheConsistency lstat sb cache).result = .error .failure ↔
    ∃ slot ∈ cache, slot.Live ∧ slot.Misplaced lstat
  /-- Without the free slots, the outcome is no other. -/
  free : ∀ sb, (checkCacheConsistency lstat sb cache).result =
    (checkCacheConsistency lstat sb (cache.filter fun slot => slot.Live)).result

/-- No live slot has another kind of file, and some file exists before each free slot. -/
structure Settled (lstat : List UInt8 → Option Stat) (cache : Cache) : Prop where
  directories : ∀ slot ∈ cache, slot.Live → ¬ slot.Misplaced lstat
  preceded : ∀ front slot rest, cache = front ++ slot :: rest → ¬ slot.Live →
    ∃ earlier ∈ front, earlier.Live ∧ (lstat earlier.path.val).isSome

variable {lstat : List UInt8 → Option Stat}

/-- Every slot that is looked up is live. -/
theorem existLoop_inspected (j cnt failures : Nat) (cache : Cache) :
    ∀ i ∈ (existLoop lstat j cnt failures cache).inspected,
      ∃ k slot, i = j + k ∧ cache[k]? = some slot ∧ slot.Live := by
  -- The induction takes one slot at a time, so that the others are one further on.
  induction cache generalizing j cnt failures with
  | nil => exact nofun
  | cons slot rest ih =>
    have later : ∀ i cnt failures, i ∈ (existLoop lstat (j + 1) cnt failures rest).inspected →
        ∃ k other, i = j + k ∧ (slot :: rest)[k]? = some other ∧ other.Live := by
      intro i cnt failures mem
      obtain ⟨k, other, same, there, live⟩ := ih (j + 1) cnt failures i mem
      exact ⟨k + 1, other, by omega, there, live⟩
    unfold existLoop
    split
    next live =>
      have here : ∃ k other, j = j + k ∧ (slot :: rest)[k]? = some other ∧ other.Live :=
        ⟨0, slot, rfl, rfl, live⟩
      -- Whatever becomes of a live slot, it is the first that is looked up.
      split
      · intro i mem
        rcases List.mem_cons.mp mem with rfl | mem
        · exact here
        · exact later i _ _ mem
      · split
        · intro i mem
          rw [List.mem_singleton.mp mem]
          exact here
        · intro i mem
          rcases List.mem_cons.mp mem with rfl | mem
          · exact here
          · exact later i _ _ mem
    -- A free slot is passed over.
    · intro i mem
      exact later i _ _ mem

/-- The program exits exactly if there is a live slot with another kind of file. -/
theorem existLoop_exits (j cnt failures : Nat) (cache : Cache) :
    (existLoop lstat j cnt failures cache).result = .error .failure ↔
      ∃ slot ∈ cache, slot.Live ∧ slot.Misplaced lstat := by
  -- The induction takes one slot at a time, and the counters are whatever the slots before have
  -- left.
  induction cache generalizing j cnt failures with
  | nil => simp [existLoop]
  | cons slot rest ih =>
    rw [List.exists_mem_cons_iff]
    unfold existLoop
    split
    next live =>
      split
      -- A pathname that is missing is counted, and the loop goes on.
      next missing =>
        have elsewhere : ¬ slot.Misplaced lstat := by
          rintro ⟨sb, there, _⟩
          exact nomatch missing.symm.trans there
        simpa [Check.after, elsewhere] using ih (j + 1) cnt (failures + 1)
      next sb there =>
        split
        -- Another kind of file ends the program.
        next file =>
          have file : sb.isDir = false := by simpa using file
          exact ⟨fun _ => .inl ⟨live, sb, there, file⟩, fun _ => rfl⟩
        next dir =>
          have elsewhere : ¬ slot.Misplaced lstat := by
            rintro ⟨other, same, file⟩
            obtain rfl := Option.some.inj (there.symm.trans same)
            exact dir (by rw [file]; rfl)
          simpa [Check.after, elsewhere] using ih (j + 1) (cnt + 1) failures
    -- A free slot is no such slot, whatever its pathname.
    next free =>
      have free : ¬ slot.Live := free
      simpa [free] using ih (j + 1) cnt failures

/-- Free slots make no difference to the second check. -/
theorem existLoop_filter (j k cnt other failures : Nat) (cache : Cache) :
    (existLoop lstat j cnt failures cache).result =
      (existLoop lstat k other failures (cache.filter fun slot => slot.Live)).result := by
  -- The filter drops just those slots that the loop passes over.
  induction cache generalizing j k cnt other failures with
  | nil => rfl
  | cons slot rest ih =>
    by_cases live : slot.wd ≥ 0
    · have here : slot.Live := live
      rw [List.filter_cons_of_pos (by simpa using here)]
      unfold existLoop
      rw [if_pos live, if_pos live]
      split
      · exact ih _ _ _ _ _
      · split
        · rfl
        · exact ih _ _ _ _ _
    · have here : ¬ slot.Live := live
      rw [List.filter_cons_of_neg (by simpa using here)]
      rw [existLoop, if_neg live]
      exact ih _ _ _ _ _

/-- Once a directory has been found, the checks agree if there is no other kind of file. -/
theorem consistencyLoop_of_dir {j failures : Nat} (cnt : Nat) {sb : Stat} {cache : Cache}
    (dir : sb.isDir = true) (directories : ∀ slot ∈ cache, slot.Live → ¬ slot.Misplaced lstat) :
    consistencyLoop lstat j failures sb cache =
      (existLoop lstat j cnt failures cache).toCheck := by
  -- Each successful call leaves a directory in the buffer, which every free slot then finds.
  induction cache generalizing j failures cnt sb with
  | nil => rfl
  | cons slot rest ih =>
    obtain ⟨here, later⟩ := List.forall_mem_cons.mp directories
    unfold consistencyLoop existLoop
    split
    -- The first loop keeps the mode that the second one tests.
    next live =>
      split
      · rw [ih cnt dir later]
      next found there =>
        have found : found.isDir = true := by
          by_contra file
          exact here live ⟨found, there, Bool.eq_false_of_not_eq_true file⟩
        rw [if_neg (by rw [found]; decide), ih (cnt + 1) found later]
    -- A free slot finds the mode of a directory in the buffer.
    · rw [if_neg (by rw [dir]; decide)]
      exact ih cnt dir later

/-- A live slot whose file is missing settles nothing for those behind it. -/
theorem Settled.of_missing {slot : Slot} {rest : Cache} (settled : Settled lstat (slot :: rest))
    (missing : lstat slot.path.val = none) : Settled lstat rest where
  directories := (List.forall_mem_cons.mp settled.directories).2
  -- A slot before it that has been found is another one than this one.
  preceded := by
    intro front free back split isFree
    obtain ⟨earlier, mem, live, found⟩ :=
      settled.preceded (slot :: front) free back (by rw [split]; rfl) isFree
    rcases List.mem_cons.mp mem with rfl | mem
    · rw [missing] at found
      exact nomatch found
    · exact ⟨earlier, mem, live, found⟩

/-- The checks agree where each free slot comes after a directory. -/
theorem Settled.loops_eq {cache : Cache} (settled : Settled lstat cache) (j cnt failures : Nat)
    (sb : Stat) : consistencyLoop lstat j failures sb cache =
      (existLoop lstat j cnt failures cache).toCheck := by
  -- The induction goes on until the first directory is found.
  induction cache generalizing j cnt failures with
  | nil => rfl
  | cons slot rest ih =>
    obtain ⟨here, later⟩ := List.forall_mem_cons.mp settled.directories
    by_cases live : slot.wd ≥ 0
    · unfold consistencyLoop existLoop
      rw [if_pos live, if_pos live]
      split
      next missing => rw [ih (settled.of_missing missing) (j + 1) cnt (failures + 1)]
      -- From the first directory on, the free slots do no harm.
      next found there =>
        have found : found.isDir = true := by
          by_contra file
          exact here live ⟨found, there, Bool.eq_false_of_not_eq_true file⟩
        rw [if_neg (by rw [found]; decide), consistencyLoop_of_dir (cnt + 1) found later]
    -- A free slot cannot be the first, because some file comes before it.
    · obtain ⟨_, none_, _⟩ := settled.preceded [] slot rest rfl live
      exact nomatch none_

/-- Without free slots, every slot is preceded by whatever is asked for. -/
theorem Settled.filter {cache : Cache} (settled : Settled lstat cache) :
    Settled lstat (cache.filter fun slot => slot.Live) where
  directories := fun slot mem => settled.directories slot (List.mem_of_mem_filter mem)
  -- No slot that is left is free.
  preceded := by
    intro front slot rest split free
    have mem : slot ∈ cache.filter fun slot => slot.Live := by
      rw [split]
      exact List.mem_append_right front List.mem_cons_self
    have live := List.of_mem_filter mem
    exact absurd (of_decide_eq_true live) free

/-- Without free slots, the first check never exits. -/
theorem consistencyLoop_live (j failures : Nat) (sb : Stat) {cache : Cache}
    (live : ∀ slot ∈ cache, slot.Live) :
    ∃ count, (consistencyLoop lstat j failures sb cache).result = .ok count := by
  -- Only the branch for a free slot can exit.
  induction cache generalizing j failures sb with
  | nil => exact ⟨failures, rfl⟩
  | cons slot rest ih =>
    obtain ⟨here, later⟩ := List.forall_mem_cons.mp live
    have here : slot.wd ≥ 0 := here
    unfold consistencyLoop
    rw [if_pos here]
    split
    · exact ih (j + 1) (failures + 1) sb later
    next found _ => exact ih (j + 1) failures found later

/-- At a free slot before which no file exists, the first check tests what it has not stored. -/
theorem consistencyLoop_unsettled (j failures : Nat) {sb : Stat} (file : sb.isDir = false)
    {front : Cache} {slot : Slot} (rest : Cache) (free : ¬ slot.Live)
    (nothing : ¬ ∃ earlier ∈ front, earlier.Live ∧ (lstat earlier.path.val).isSome) :
    (consistencyLoop lstat j failures sb (front ++ slot :: rest)).result = .error .failure := by
  have free : ¬ slot.wd ≥ 0 := free
  -- The induction passes the slots before it, none of which changes the buffer.
  induction front generalizing j failures with
  | nil =>
    rw [List.nil_append, consistencyLoop, if_neg free, if_pos (by rw [file]; rfl)]
  | cons first front ih =>
    rw [List.exists_mem_cons_iff, not_or] at nothing
    rw [List.cons_append, consistencyLoop]
    by_cases live : first.wd ≥ 0
    · have missing : lstat first.path.val = none := by
        by_contra found
        exact nothing.1 ⟨live, Option.isSome_iff_ne_none.mpr found⟩
      rw [if_pos live, missing]
      exact ih (j + 1) (failures + 1) nothing.2
    · rw [if_neg live, if_pos (by rw [file]; rfl)]

/-- The two checks agree exactly on the caches where a free slot never decides anything. -/
theorem checkCacheConsistency_agree_iff (lstat : List UInt8 → Option Stat) (cache : Cache) :
    Agree lstat cache ↔ Settled lstat cache := by
  constructor
  · intro agree
    -- Without the free slots, nothing makes the first check exit.
    have directories : ∀ slot ∈ cache, slot.Live → ¬ slot.Misplaced lstat := by
      intro slot mem live misplaced
      have exits := (agree.exits ⟨true, 0, 0⟩).mpr ⟨slot, mem, live, misplaced⟩
      rw [agree.free] at exits
      have every : ∀ slot ∈ cache.filter fun slot => slot.Live, slot.Live := by
        intro slot mem
        simpa using List.of_mem_filter mem
      obtain ⟨count, result⟩ := consistencyLoop_live 0 0 ⟨true, 0, 0⟩ every
      exact nomatch exits.symm.trans result
    refine ⟨directories, fun front slot rest split free => ?_⟩
    -- Otherwise the buffer might hold another kind of file from the start.
    by_contra nothing
    have file : (⟨false, 0, 0⟩ : Stat).isDir = false := rfl
    have exits := consistencyLoop_unsettled 0 0 file rest free nothing
    rw [← split] at exits
    obtain ⟨other, mem, live, misplaced⟩ := (agree.exits ⟨false, 0, 0⟩).mp exits
    exact directories other mem live misplaced
  -- The other way round, both loops do the same, and the second one has the properties.
  · intro settled
    have same : ∀ sb, checkCacheConsistency lstat sb cache =
        (checkAllCachedPathnamesExist lstat cache).toCheck := settled.loops_eq 0 0 0
    refine ⟨same, fun sb j mem => ?_, fun sb => ?_, fun sb => ?_⟩
    · rw [same] at mem
      obtain ⟨k, slot, rfl, there, live⟩ := existLoop_inspected 0 0 0 cache j mem
      exact ⟨slot, by rwa [Nat.zero_add], live⟩
    · rw [same]
      exact existLoop_exits 0 0 0 cache
    · rw [same, checkCacheConsistency, settled.filter.loops_eq 0 0 0 sb]
      exact existLoop_filter 0 0 0 0 0 cache

/-- A file that is not a directory passes the first check. -/
theorem checkCacheConsistency_not_agree : ¬ ∀ lstat cache, Agree lstat cache := by
  intro promised
  have agree := promised (fun _ => some ⟨false, 1, 1⟩) [Slot.of ⟨1, by decide⟩ ⟨[97], by decide⟩]
  exact absurd (agree.same ⟨true, 0, 0⟩) (by decide)

end SysProg.Inotify
