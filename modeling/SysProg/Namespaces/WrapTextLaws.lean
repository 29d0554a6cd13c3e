import SysProg.Namespaces.WrapText

/-! The lines into which a text is wrapped are as long as they can be, and not longer. -/

namespace SysProg.Namespaces

open SysProg.Filling (newline blank unwords render fill Filled)

/-- What is promised of a text that has been wrapped into these lines of words. -/
structure Wrapped (text : List UInt8) (width : Int) (indent result : List UInt8)
    (lines : List (List (List UInt8))) : Prop where
  /-- Each line is behind the indent, and has a blank between two words. -/
  rendered : result = render indent indent lines
  /-- Without the indents, and joined with blanks, the lines are the words of the text. -/
  inOrder : [blank].intercalate (lines.map unwords) = unwords (Fields.fields text)
  flatten : lines.flatten = Fields.fields text
  /-- A line without its indent is at most so long, unless it consists of a single word. -/
  fits : ∀ line ∈ lines, (unwords line).length ≤ width ∨ ∃ word, line = [word]
  /-- The first word of a line would not have fitted on the line before. -/
  greedy : lines.IsChain fun line next =>
    ∃ word rest, next = word :: rest ∧ width < (unwords line).length + 1 + word.length
  /-- The lines are those of the output, where a line feed can only be between them. -/
  split : newline ∉ indent → lines ≠ [] →
    result.splitOn newline = lines.map fun line => indent ++ unwords line
  /-- So it is the output itself that is joined. -/
  joined : newline ∉ indent →
    [blank].intercalate ((result.splitOn newline).map fun line => line.drop indent.length) =
      unwords (Fields.fields text)

/-- The lines of a text that has been wrapped, which are those of the greedy filling. -/
theorem wrapText_eq (text : List UInt8) (width : Int) (indent : List UInt8) :
    ∃ lines, wrapText text width indent = render indent indent lines ∧
      lines.flatten = Fields.fields text ∧ Filled List.length width lines := by
  unfold wrapText
  split
  next none_ => exact ⟨[], rfl, by rw [none_]; rfl, ⟨nofun, nofun, .nil⟩⟩
  next first rest words =>
    -- The column is the width of the line without its indent.
    have counted : (first.length : Int) = 0 + Filling.width List.length [first] := by
      simp [Filling.width]
    have looped := Filling.wrapLoop_eq indent width indent (List.cons_ne_nil first []) counted rest
    rw [sub_zero, unwords, List.intercalate_singleton] at looped
    refine ⟨fill List.length width width [first] rest, looped, ?_, ?_⟩
    · rw [Filling.flatten_fill, words]
      rfl
    · exact Filling.fill_filled width (by simp) (.inr rfl) rest

/-- Every text is wrapped into lines that are filled, and that are all of its words. -/
theorem wrapText_wrapped (text : List UInt8) (width : Int) (indent : List UInt8) :
    ∃ lines, Wrapped text width indent (wrapText text width indent) lines := by
  obtain ⟨lines, rendered, flatten, filled⟩ := wrapText_eq text width indent
  have inOrder : [blank].intercalate (lines.map unwords) = unwords (Fields.fields text) := by
    rw [Filling.intercalate_unwords filled.some_, flatten]
  have split_ : newline ∉ indent → lines ≠ [] → (wrapText text width indent).splitOn newline =
      lines.map fun line => indent ++ unwords line := by
    intro noNewline some_
    rw [rendered]
    -- A line feed is white space, so it is in no word.
    refine Filling.splitOn_render some_ noNewline fun line mem word among => ?_
    have inText : word ∈ Fields.fields text := flatten ▸ List.mem_flatten_of_mem mem among
    exact (Fields.mem_fields (by decide) inText).2
  refine ⟨lines, rendered, inOrder, flatten, fun line mem => ?_, ?_, split_, fun noNewline => ?_⟩
  · rw [Filling.length_unwords]
    exact (filled.fits line mem).imp_right List.length_eq_one_iff.mp
  · refine filled.breaks.imp fun line next ⟨word, rest, begins, wide⟩ => ?_
    exact ⟨word, rest, begins, by rwa [Filling.length_unwords]⟩
  · by_cases none_ : lines = []
    · -- Without a word, the output is a single line, which is empty.
      subst none_
      rw [rendered, ← inOrder]
      simp [render]
    · rw [split_ noNewline none_, List.map_map, ← inOrder]
      simp [Function.comp_def]

end SysProg.Namespaces
