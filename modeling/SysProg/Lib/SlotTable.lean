import Mathlib.Tactic
import Mathlib.Data.List.Perm.Basic

/-! Tables of slots that hold entries with distinct keys, and the finite maps they stand for. -/

namespace SysProg

variable {κ ν : Type*}

/-- A table of slots, each of which is free or holds an entry. -/
abbrev SlotTable (κ ν : Type*) := List (Option (κ × ν))

namespace SlotTable

/-- The entries of a table, in the order of their slots. -/
def entries (table : SlotTable κ ν) : List (κ × ν) :=
  table.filterMap id

/-- No two slots hold entries with the same key. -/
def Distinct (table : SlotTable κ ν) : Prop :=
  (table.entries.map Prod.fst).Nodup

/-- An entry is one of a table when some slot holds it. -/
theorem mem_entries {table : SlotTable κ ν} {entry : κ × ν} :
    entry ∈ table.entries ↔ some entry ∈ table := by
  simp [entries, List.mem_filterMap]

/-- Growing a table by free slots does not change its entries. -/
theorem entries_grow (table : SlotTable κ ν) (count : Nat) :
    entries (table ++ List.replicate count none) = table.entries := by
  rw [entries, List.filterMap_append, List.filterMap_replicate]
  simp [entries]

/-- Taking a free slot adds an entry. -/
theorem entries_put {table : SlotTable κ ν} {slot : Nat} (free : table[slot]? = some none)
    (entry : κ × ν) : (entries (table.set slot (some entry))).Perm (entry :: table.entries) := by
  -- Induction on the table; the entry moves to the front over those before its slot.
  induction table generalizing slot with
  | nil => cases free
  | cons first rest ih =>
    cases slot with
    | zero =>
      obtain rfl : first = none := by simpa using free
      exact .refl _
    | succ slot =>
      have there := ih (by simpa using free)
      cases first with
      | none => exact there
      | some before => exact (there.cons before).trans (.swap _ _ _)

/-- Freeing a slot removes its entry. -/
theorem entries_clear {table : SlotTable κ ν} {slot : Nat} {entry : κ × ν}
    (held : table[slot]? = some (some entry)) :
    table.entries.Perm (entry :: entries (table.set slot none)) := by
  -- By induction on the table, down to the slot.
  induction table generalizing slot with
  | nil => cases held
  | cons first rest ih =>
    cases slot with
    | zero =>
      obtain rfl : first = some entry := by simpa using held
      exact .refl _
    | succ slot =>
      have there := ih (by simpa using held)
      cases first with
      | none => exact there
      | some before => exact (there.cons before).trans (.swap _ _ _)

/-- Changing the values of all entries in place. -/
theorem entries_map (table : SlotTable κ ν) (change : ν → ν) :
    entries (table.map (Option.map (Prod.map id change))) =
      table.entries.map (Prod.map id change) := by
  rw [entries, entries, List.filterMap_map, List.map_filterMap]
  congr 1

/-- Distinct keys stay distinct where only values change. -/
theorem Distinct.map {table : SlotTable κ ν} (distinct : table.Distinct) (change : ν → ν) :
    Distinct (table.map (Option.map (Prod.map id change))) := by
  rw [Distinct, entries_map, List.map_map]
  exact distinct

/-- Distinct keys stay distinct where entries are removed. -/
theorem Distinct.of_removed {table next : SlotTable κ ν} (distinct : table.Distinct)
    {gone : List (κ × ν)} (removed : table.entries.Perm (gone ++ next.entries)) :
    next.Distinct := by
  have all := (removed.map Prod.fst).nodup_iff.mp distinct
  rw [List.map_append] at all
  exact (List.nodup_append.mp all).2.1

/-- Two slots with the same key are the same slot. -/
theorem Distinct.slot_unique {table : SlotTable κ ν} (distinct : table.Distinct)
    {first second : Nat} {key : κ} {one two : ν} (left : table[first]? = some (some (key, one)))
    (right : table[second]? = some (some (key, two))) : first = second := by
  -- After the first slot has been freed, its key is gone.
  by_contra apart
  have all := ((entries_clear left).map Prod.fst).nodup_iff.mp distinct
  refine (List.nodup_cons.mp all).1 (List.mem_map.mpr ⟨(key, two), ?_, rfl⟩)
  have stays : (table.set first none)[second]? = some (some (key, two)) := by
    rw [List.getElem?_set_ne apart]
    exact right
  exact mem_entries.mpr (List.mem_of_getElem? stays)

variable [DecidableEq κ]

/-- The map for which a table stands. -/
def lookup (table : SlotTable κ ν) (key : κ) : Option ν :=
  (table.entries.find? (·.1 = key)).map Prod.snd

/-- The value of a key is that of the entry with the key. -/
theorem lookup_eq_some_iff {table : SlotTable κ ν} (distinct : table.Distinct) {key : κ}
    {value : ν} : table.lookup key = some value ↔ (key, value) ∈ table.entries := by
  rw [lookup, Option.map_eq_some_iff]
  -- The keys are distinct, so the first entry with the key is the only one.
  constructor
  · rintro ⟨⟨other, same⟩, found, rfl⟩
    obtain rfl : other = key := by simpa using List.find?_some found
    exact List.mem_of_find?_eq_some found
  · intro mem
    cases found : table.entries.find? (·.1 = key) with
    | none => simpa using List.find?_eq_none.mp found _ mem
    | some entry =>
      have same : entry.1 = key := by simpa using List.find?_some found
      have equal := List.inj_on_of_nodup_map distinct (List.mem_of_find?_eq_some found) mem same
      exact ⟨entry, rfl, congrArg Prod.snd equal⟩

/-- A key has no value when no entry has this key. -/
theorem lookup_eq_none_iff {table : SlotTable κ ν} {key : κ} :
    table.lookup key = none ↔ ∀ value, (key, value) ∉ table.entries := by
  simp only [lookup, Option.map_eq_none_iff, List.find?_eq_none, decide_eq_true_eq]
  -- The search goes through all entries.
  constructor
  · intro absent value mem
    exact absent _ mem rfl
  · rintro absent ⟨other, value⟩ mem rfl
    exact absent value mem

/-- Tables with the same entries, in whatever order, stand for the same map. -/
theorem lookup_perm {first second : SlotTable κ ν} (distinct : first.Distinct)
    (same : first.entries.Perm second.entries) : first.lookup = second.lookup := by
  -- With distinct keys the order of the entries does not matter.
  have distinct_ : second.Distinct := (same.map Prod.fst).nodup_iff.mp distinct
  funext key
  refine Option.ext fun value => ?_
  rw [lookup_eq_some_iff distinct, lookup_eq_some_iff distinct_, same.mem_iff]

/-- Distinct keys stay distinct where a new key is added. -/
theorem Distinct.put {table : SlotTable κ ν} (distinct : table.Distinct) {slot : Nat}
    (free : table[slot]? = some none) {key : κ} (absent : table.lookup key = none) (value : ν) :
    Distinct (table.set slot (some (key, value))) := by
  -- The key is new, so it is different from all the others.
  refine ((entries_put free (key, value)).map Prod.fst).nodup_iff.mpr
    (List.nodup_cons.mpr ⟨fun mem => ?_, distinct⟩)
  obtain ⟨⟨other, there⟩, held, rfl⟩ := List.mem_map.mp mem
  exact lookup_eq_none_iff.mp absent there held

/-- Taking a free slot for a new key adds the key to the map. -/
theorem lookup_put {table : SlotTable κ ν} (distinct : table.Distinct) {slot : Nat}
    (free : table[slot]? = some none) {key : κ} (absent : table.lookup key = none) (value : ν) :
    lookup (table.set slot (some (key, value))) =
      Function.update table.lookup key (some value) := by
  funext other
  refine Option.ext fun there => ?_
  rw [lookup_eq_some_iff (distinct.put free absent value), (entries_put free _).mem_iff,
    List.mem_cons]
  -- The key is found in the slot that was free, and the other keys where they were.
  by_cases same : other = key
  · subst same
    rw [Function.update_self]
    have fresh := lookup_eq_none_iff.mp absent there
    simp [fresh, eq_comm]
  · rw [Function.update_of_ne same, lookup_eq_some_iff distinct]
    simp [same]

/-- Removing entries removes their keys from the map. -/
theorem lookup_of_removed {table next : SlotTable κ ν} (distinct : table.Distinct)
    {gone : List (κ × ν)} (removed : table.entries.Perm (gone ++ next.entries)) (key : κ) :
    next.lookup key = if key ∈ gone.map Prod.fst then none else table.lookup key := by
  have all := (removed.map Prod.fst).nodup_iff.mp distinct
  rw [List.map_append] at all
  -- A key of a removed entry is in no other one, and the other keys keep theirs.
  split
  · rename_i zapped
    refine lookup_eq_none_iff.mpr fun value mem => ?_
    exact (List.nodup_append.mp all).2.2 key zapped key (List.mem_map.mpr ⟨_, mem, rfl⟩) rfl
  · rename_i kept
    refine Option.ext fun value => ?_
    rw [lookup_eq_some_iff (distinct.of_removed removed), lookup_eq_some_iff distinct,
      removed.mem_iff, List.mem_append]
    have other : (key, value) ∉ gone := fun mem => kept (List.mem_map.mpr ⟨_, mem, rfl⟩)
    simp [other]

/-- Freeing a slot removes its key from the map. -/
theorem lookup_clear {table : SlotTable κ ν} (distinct : table.Distinct) {slot : Nat}
    {entry : κ × ν} (held : table[slot]? = some (some entry)) :
    lookup (table.set slot none) = Function.update table.lookup entry.1 none := by
  -- One entry is removed.
  have removed : table.entries.Perm ([entry] ++ entries (table.set slot none)) := entries_clear held
  funext other
  rw [lookup_of_removed distinct removed, Function.update_apply]
  simp

/-- Changing the values of all entries changes the values of the map. -/
theorem lookup_map {table : SlotTable κ ν} (change : ν → ν) (key : κ) :
    lookup (table.map (Option.map (Prod.map id change))) key = (table.lookup key).map change := by
  rw [lookup, lookup, entries_map, List.find?_map, Option.map_map, Option.map_map]
  rfl

end SlotTable

end SysProg
