import Mathlib.Tactic

/-! The lines of a text, each with the newline that ends it. -/

namespace SysProg.Lines

variable {α : Type*} [DecidableEq α] (newline : α)

/-- The first line of a text, up to and including the first newline or up to the end. -/
def line : List α → List α
  | [] => []
  | c :: rest => if c = newline then [c] else c :: line rest

/-- The lines of a text that goes on where this much of a line has been read. -/
def linesFrom (begun : List α) : List α → List (List α)
  | [] => if begun = [] then [] else [begun]
  | c :: rest =>
    if c = newline then (begun ++ [c]) :: linesFrom [] rest else linesFrom (begun ++ [c]) rest

/-- The lines of a text. -/
def lines (text : List α) : List (List α) :=
  linesFrom newline [] text

/-- What has been read of a line after a text, if this much has been read before it. -/
def leftover (begun : List α) : List α → List α
  | [] => begun
  | c :: rest => if c = newline then leftover [] rest else leftover (begun ++ [c]) rest

variable {newline}

/-- Only the empty text has an empty first line. -/
theorem line_eq_nil_iff {text : List α} : line newline text = [] ↔ text = [] := by
  cases text with
  | nil => exact ⟨fun _ => rfl, fun _ => rfl⟩
  | cons c rest =>
    unfold line
    -- A text with a letter has a line with one.
    split <;> simp

/-- The lines of a text make up the text. -/
theorem linesFrom_flatten (begun text : List α) :
    (linesFrom newline begun text).flatten = begun ++ text := by
  -- By induction on the text; each letter goes to the line that is begun.
  induction text generalizing begun with
  | nil =>
    unfold linesFrom
    split
    next empty => simp [empty]
    · simp
  | cons c rest ih =>
    unfold linesFrom
    split
    · rw [List.flatten_cons, ih, List.append_assoc]
      rfl
    · rw [ih, List.append_assoc]
      rfl

/-- What has been read of a line is the beginning of one of the lines. -/
theorem exists_mem_linesFrom {begun : List α} (some_ : begun ≠ []) (text : List α) :
    ∃ l ∈ linesFrom newline begun text, begun <+: l := by
  -- By induction on the text, up to the end of the line that is begun.
  induction text generalizing begun with
  | nil => exact ⟨begun, by simp [linesFrom, some_], List.prefix_refl begun⟩
  | cons c rest ih =>
    unfold linesFrom
    split
    · exact ⟨begun ++ [c], List.mem_cons_self, List.prefix_append begun [c]⟩
    · have more := List.append_ne_nil_of_right_ne_nil begun (List.cons_ne_nil c [])
      obtain ⟨l, mem, starts⟩ := ih more
      exact ⟨l, mem, (List.prefix_append begun [c]).trans starts⟩

/-- Reading one text after the other is reading both. -/
theorem leftover_append (begun front back : List α) :
    leftover newline begun (front ++ back) =
      leftover newline (leftover newline begun front) back := by
  -- By induction on the first part.
  induction front generalizing begun with
  | nil => rfl
  | cons c rest ih =>
    simp only [List.cons_append, leftover]
    split
    · exact ih []
    · exact ih (begun ++ [c])

/-- Nothing has been read of a line exactly at the start and after a newline. -/
theorem leftover_eq_nil_iff (text : List α) :
    leftover newline [] text = [] ↔ text = [] ∨ text.getLast? = some newline := by
  -- The last character decides.
  induction text using List.reverseRecOn with
  | nil => exact ⟨fun _ => .inl rfl, fun _ => rfl⟩
  | append_singleton front c _ =>
    rw [leftover_append]
    by_cases ends : c = newline
    · simp [leftover, ends]
    · simp [leftover, ends]

end SysProg.Lines
