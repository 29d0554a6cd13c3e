import Mathlib.Tactic

/-! Descriptors of a process: which are open, and which have been opened and closed. -/

namespace SysProg

/-- The choice of a number for a new descriptor, which is never one that is in use. -/
structure Numbering where
  fresh : List Nat → Nat
  unused : ∀ used, fresh used ∉ used

/-- There are always numbers that are not in use. -/
theorem exists_unused (used : List Nat) : ∃ fd, fd ∉ used := by
  obtain ⟨fd, absent⟩ := Infinite.exists_notMem_finset used.toFinset
  exact ⟨fd, by simpa using absent⟩

/-- The lowest number that is not in use, as POSIX has it. -/
def Numbering.lowest : Numbering where
  fresh used := Nat.find (exists_unused used)
  unused used := Nat.find_spec (exists_unused used)

/-- The open descriptors with what they refer to, and a record of what has been done. -/
structure Descriptors (Object : Type*) where
  /-- The open ones, the last opened first. -/
  table : List (Nat × Object)
  /-- The numbers that have been returned for new descriptors, the last one first. -/
  opened : List Nat
  /-- The numbers that have been closed, the last one first. -/
  closed : List Nat
  nodup : (table.map Prod.fst).Nodup

namespace Descriptors

variable {Object : Type*}

/-- The numbers in use. -/
def used (fds : Descriptors Object) : List Nat :=
  fds.table.map Prod.fst

/-- What a descriptor refers to, if it is open. -/
def object (fds : Descriptors Object) (fd : Nat) : Option Object :=
  fds.table.lookup fd

/-- A new descriptor for an object. -/
def openNew (numbering : Numbering) (object : Object) (fds : Descriptors Object) :
    Nat × Descriptors Object :=
  let fd := numbering.fresh fds.used
  (fd, ⟨(fd, object) :: fds.table, fd :: fds.opened, fds.closed,
    List.nodup_cons.mpr ⟨numbering.unused _, fds.nodup⟩⟩)

/-- `close`, which fails if the descriptor is not open. -/
def close (fd : Nat) (fds : Descriptors Object) : Option (Descriptors Object) :=
  if fd ∈ fds.used then
    some ⟨fds.table.filter (·.1 ≠ fd), fds.opened, fd :: fds.closed,
      (List.filter_sublist.map Prod.fst).nodup fds.nodup⟩
  else none

/-- Nothing has been done yet with these descriptors. -/
def start (table : List (Nat × Object)) (nodup : (table.map Prod.fst).Nodup) :
    Descriptors Object :=
  ⟨table, [], [], nodup⟩

/--
What has been done since there were these open descriptors, when some are to be open still.

Everything else that has been opened has been closed exactly once, and nothing that was open.
-/
structure Since (before : List (Nat × Object)) (fds : Descriptors Object)
    (kept : List (Nat × Object)) : Prop where
  table : fds.table = kept ++ before
  balanced : fds.opened.Perm (kept.map Prod.fst ++ fds.closed)
  untouched : ∀ fd ∈ fds.closed, fd ∉ before.map Prod.fst

/-- A number that is not in use is not found. -/
theorem lookup_eq_none {table : List (Nat × Object)} {fd : Nat}
    (absent : fd ∉ table.map Prod.fst) : table.lookup fd = none := by
  -- An entry with the descriptor would make it one of the table.
  rw [List.lookup_eq_none_iff]
  intro entry there
  rw [bne_iff_ne]
  rintro rfl
  exact absent (List.mem_map_of_mem there)

/-- A number that is found is in use. -/
theorem mem_of_lookup {table : List (Nat × Object)} {fd : Nat} {object : Object}
    (found : table.lookup fd = some object) : fd ∈ table.map Prod.fst := by
  by_contra absent
  rw [lookup_eq_none absent] at found
  exact nomatch found

variable {before kept : List (Nat × Object)} {fds : Descriptors Object}

/-- At the start, nothing is to be closed. -/
theorem since_start (table : List (Nat × Object)) (nodup : (table.map Prod.fst).Nodup) :
    Since table (start table nodup) [] :=
  ⟨rfl, List.Perm.nil, nofun⟩

/-- A new descriptor is to be closed. -/
theorem Since.openNew (since : Since before fds kept) (numbering : Numbering) (object : Object) :
    Since before (fds.openNew numbering object).2
      (((fds.openNew numbering object).1, object) :: kept) where
  -- The new descriptor is put in front of those opened since.
  table := by
    show _ :: fds.table = _
    rw [since.table]
    rfl
  balanced := since.balanced.cons _
  untouched := since.untouched

/-- What a new descriptor refers to. -/
theorem object_openNew (numbering : Numbering) (object : Object) (fds : Descriptors Object) :
    (fds.openNew numbering object).2.object (fds.openNew numbering object).1 = some object :=
  List.lookup_cons_self

/-- A new descriptor is none of those that are open. -/
theorem openNew_notMem (since : Since before fds kept) (numbering : Numbering) (object : Object) :
    (fds.openNew numbering object).1 ∉ before.map Prod.fst ∧
      (fds.openNew numbering object).1 ∉ kept.map Prod.fst := by
  -- A descriptor in use was open before or was opened since.
  have both : ∀ fd, fd ∈ fds.used ↔ fd ∈ kept.map Prod.fst ∨ fd ∈ before.map Prod.fst := by
    intro fd
    rw [used, since.table, List.map_append, List.mem_append]
  have unused := (both _).not.mp (numbering.unused fds.used)
  exact ⟨fun mem => unused (.inr mem), fun mem => unused (.inl mem)⟩

/-- What was open before still refers to the same. -/
theorem Since.object (since : Since before fds kept) {fd : Nat}
    (mem : fd ∈ before.map Prod.fst) : fds.object fd = before.lookup fd := by
  -- No number is in use twice.
  have nodup := fds.nodup
  rw [since.table, List.map_append] at nodup
  have absent : fd ∉ kept.map Prod.fst := fun other => List.disjoint_of_nodup_append nodup other mem
  have none_ := lookup_eq_none absent
  rw [Descriptors.object, since.table, List.lookup_append, none_, Option.none_or]

/-- Nothing is taken away where a descriptor is not. -/
theorem filter_fst_ne {fd : Nat} {table : List (Nat × Object)} (absent : fd ∉ table.map Prod.fst) :
    table.filter (·.1 ≠ fd) = table := by
  -- No entry has the descriptor.
  refine List.filter_eq_self.mpr fun entry mem => ?_
  rw [decide_eq_true_eq]
  rintro rfl
  exact absent (List.mem_map_of_mem mem)

/-- A descriptor that is to be closed can be closed. -/
theorem Since.close {fd : Nat} {object : Object} {front back : List (Nat × Object)}
    (since : Since before fds (front ++ (fd, object) :: back)) :
    ∃ after, fds.close fd = some after ∧ Since before after (front ++ back) := by
  have nodup := fds.nodup
  rw [since.table, List.append_assoc, List.cons_append, List.map_append, List.map_cons,
    List.nodup_middle, List.nodup_cons, List.mem_append, not_or, List.map_append, List.mem_append,
    not_or] at nodup
  obtain ⟨⟨noFront, noBack, noBefore⟩, -⟩ := nodup
  have isOpen : fd ∈ fds.used := by
    rw [used, since.table]
    simp
  rw [Descriptors.close, if_pos isOpen]
  refine ⟨_, rfl, ⟨?_, ?_, ?_⟩⟩
  · show fds.table.filter (·.1 ≠ fd) = _
    rw [since.table]
    simp only [List.filter_append, List.filter_cons, filter_fst_ne noFront, filter_fst_ne noBack,
      filter_fst_ne noBefore]
    simp
  · show fds.opened.Perm (_ ++ fd :: fds.closed)
    -- The descriptor goes from those that are to be closed to those that are.
    have taken : (List.map Prod.fst (front ++ (fd, object) :: back) ++ fds.closed).Perm
        (fd :: (List.map Prod.fst (front ++ back) ++ fds.closed)) := by
      simp only [List.map_append, List.map_cons, List.append_assoc, List.cons_append]
      exact List.perm_middle
    exact (since.balanced.trans taken).trans List.perm_middle.symm
  · show ∀ other ∈ fd :: fds.closed, _
    rintro other (_ | ⟨_, mem⟩)
    · exact noBefore
    · exact since.untouched other mem

end Descriptors

end SysProg
