import Mathlib.Tactic

/-! Arrays of pointers that end with a null pointer, and the removal of an element in place. -/

namespace SysProg

variable {α : Type*}

/-- The cells of an array of pointers, one of which is null. -/
structure NullTerminated (α : Type*) where
  cells : List (Option α)
  terminated : none ∈ cells

namespace NullTerminated

/-- What the pointers before the first null pointer refer to. -/
def entriesOf : List (Option α) → List α
  | some entry :: rest => entry :: entriesOf rest
  | _ => []

/-- The elements of an array. -/
def entries (array : NullTerminated α) : List α :=
  entriesOf array.cells

/-- An array that has just enough cells for its elements. -/
def ofList (entries : List α) : NullTerminated α :=
  ⟨entries.map some ++ [none], by simp⟩

/-- A new array has the elements it was made of. -/
@[simp] theorem entries_ofList (entries : List α) : (ofList entries).entries = entries := by
  show entriesOf (entries.map some ++ [none]) = entries
  -- By induction on the entries, up to the null pointer.
  induction entries with
  | nil => rfl
  | cons entry rest ih => exact congrArg (entry :: ·) ih

/--
Each cell gets what is in the next one, up to the first that is null.

The array ends there, so that nothing behind it is read.
-/
def shiftBack : List (Option α) → List (Option α)
  | some _ :: rest => rest.head?.join :: shiftBack rest
  | cells => cells

/-- The first element is removed, and no other. -/
theorem entriesOf_shiftBack (entry : α) (rest : List (Option α)) :
    entriesOf (shiftBack (some entry :: rest)) = entriesOf rest := by
  -- The induction follows the element that has just been moved.
  induction rest generalizing entry with
  | nil => rfl
  | cons cell rest ih =>
    cases cell with
    | none => rfl
    | some next => exact congrArg (next :: ·) (ih next)

/-- There is still a null pointer after the shift. -/
theorem none_mem_shiftBack {cells : List (Option α)} (terminated : none ∈ cells) :
    none ∈ shiftBack cells := by
  -- The null pointer is behind the elements, and what is behind them stays.
  induction cells with
  | nil => exact nomatch terminated
  | cons cell rest ih =>
    cases cell with
    | none => exact terminated
    | some entry =>
      have later : none ∈ rest := (List.mem_cons.mp terminated).resolve_left nofun
      exact List.mem_cons_of_mem _ (ih later)

end NullTerminated

end SysProg
