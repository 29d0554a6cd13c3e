import Mathlib.Tactic

/-! Searching for a character in a string, and strings whose parts are separated by one. -/

namespace SysProg.Strings

/-- `strchr`, as an offset. -/
def strchr (text : List UInt8) (char : UInt8) : Option Nat :=
  text.findIdx? (· = char)

/-- A character that is not there is not found. -/
theorem strchr_eq_none {text : List UInt8} {char : UInt8} :
    strchr text char = none ↔ char ∉ text := by
  simp only [strchr, List.findIdx?_eq_none_iff, decide_eq_false_iff_not]
  exact ⟨fun other mem => other char mem rfl, fun absent byte mem same => absent (same ▸ mem)⟩

/-- A character is found where it is first. -/
theorem strchr_append {front : List UInt8} {char : UInt8} (before : char ∉ front)
    (rest : List UInt8) : strchr (front ++ char :: rest) char = some front.length := by
  have none_ : front.findIdx? (· = char) = none := strchr_eq_none.mpr before
  simp [strchr, List.findIdx?_append, none_, List.findIdx?_cons]

/-- What is said of a string holds if it holds of a last part and of a part before others. -/
theorem split_induction (separator : UInt8) {holds : List UInt8 → Prop}
    (last : ∀ part, separator ∉ part → holds part)
    (inner : ∀ part rest, separator ∉ part → holds rest → holds (part ++ separator :: rest))
    (text : List UInt8) : holds text := by
  -- The rest behind a separator is shorter.
  induction length : text.length using Nat.strong_induction_on generalizing text with
  | _ length_ ih =>
    by_cases more : separator ∈ text
    · obtain ⟨part, rest, rfl, absent⟩ := List.eq_append_cons_of_mem more
      exact inner part rest absent (ih rest.length (by simp at length; omega) rest rfl)
    · exact last text more

/-- There is no separator in a part between two of them. -/
theorem notMem_of_mem_splitOn {separator : UInt8} {text part : List UInt8}
    (mem : part ∈ text.splitOn separator) : separator ∉ part := by
  -- The text is split at every separator.
  induction text using split_induction separator with
  | last last_ absent =>
    rw [List.splitOn_eq_singleton absent, List.mem_singleton] at mem
    exact mem ▸ absent
  | inner first rest absent ih =>
    rw [List.splitOn_append_cons_self_of_not_mem absent] at mem
    obtain rfl | later := List.mem_cons.mp mem
    · exact absent
    · exact ih later

section

variable {Item : Type*} {write : Item → List UInt8} {separator : UInt8}

/-- Items that are written with separators between them are what the text is split into. -/
theorem intercalate_map_eq_iff {items : List Item} (some_ : items ≠ [])
    (without : ∀ item ∈ items, separator ∉ write item) {text : List UInt8} :
    [separator].intercalate (items.map write) = text ↔
      text.splitOn separator = items.map write := by
  -- No item has a separator in it, so splitting the text gives them back.
  constructor
  · rintro rfl
    refine List.splitOn_intercalate separator (fun part mem => ?_) (by simpa using some_)
    obtain ⟨item, among, rfl⟩ := List.mem_map.mp mem
    exact without item among
  · intro split
    rw [← split, List.intercalate_splitOn]

/-- Parts that are each written for an item are written for a list of items. -/
theorem exists_map_write {holds : Item → Prop} {parts : List (List UInt8)}
    (each : ∀ part ∈ parts, ∃ item, write item = part ∧ holds item) :
    ∃ items : List Item, parts = items.map write ∧ ∀ item ∈ items, holds item := by
  -- By induction on the parts.
  induction parts with
  | nil => exact ⟨[], rfl, nofun⟩
  | cons part parts ih =>
    obtain ⟨⟨item, rfl, here⟩, others⟩ := List.forall_mem_cons.mp each
    obtain ⟨items, rfl, all⟩ := ih others
    exact ⟨item :: items, rfl, List.forall_mem_cons.mpr ⟨here, all⟩⟩

end

end SysProg.Strings
