import SysProg.Cgroups.WrapText

/-! The lines into which a list of IDs is wrapped are filled, apart from the first one. -/

namespace SysProg.Cgroups

open SysProg.Filling (blank render width fill Filled)

/-- What is promised of a text that has been wrapped into these lines of words. -/
structure Wrapped (text prefix_ : List UInt8) (displayWidth : Int) (indent result : List UInt8)
    (lines : List (List (List UInt8))) : Prop where
  /-- The first line is behind the prefix, and the others are behind an equal amount of space. -/
  rendered : result =
    render (indent ++ prefix_) (indent ++ List.replicate prefix_.length blank) lines
  /-- The words are those of the text, in order and unchanged. -/
  flatten : lines.flatten = Fields.fields text
  some_ : ∀ line ∈ lines, line ≠ []
  /-- No line has too many columns, unless it holds a single word. -/
  fits : ∀ line ∈ lines,
    prefix_.length + width displayLength line ≤ displayWidth ∨ line.length = 1
  /-- A line ends only where a blank and the next word would be too many columns for it. -/
  breaks : lines.IsChain fun line next => ∃ word rest, next = word :: rest ∧
    displayWidth < prefix_.length + width displayLength line + 1 + displayLength word

variable {text prefix_ indent result : List UInt8} {displayWidth : Int}
  {lines : List (List (List UInt8))}

/-- The promise is that all lines are filled to what the prefix leaves of the width. -/
theorem wrapped_iff : Wrapped text prefix_ displayWidth indent result lines ↔
    result = render (indent ++ prefix_) (indent ++ List.replicate prefix_.length blank) lines ∧
      lines.flatten = Fields.fields text ∧
        Filled displayLength (displayWidth - prefix_.length) lines := by
  -- The same conditions, with the width of the prefix on the other side.
  constructor
  · rintro ⟨rendered, flatten, some_, fits, breaks⟩
    refine ⟨rendered, flatten, some_, fun line mem => ?_, ?_⟩
    · exact (fits line mem).imp_left fun narrow => by omega
    · exact breaks.imp fun line next ⟨word, rest, begins, wide⟩ => ⟨word, rest, begins, by omega⟩
  · rintro ⟨rendered, flatten, some_, fits, breaks⟩
    refine ⟨rendered, flatten, some_, fun line mem => ?_, ?_⟩
    · exact (fits line mem).imp_left fun narrow => by omega
    · exact breaks.imp fun line next ⟨word, rest, begins, wide⟩ => ⟨word, rest, begins, by omega⟩

/-- The prefix is counted twice in the first line, which gets so much less room for its words. -/
theorem wrapText_cons {first : List UInt8} {rest : List (List UInt8)}
    (words : Fields.fields text = first :: rest) :
    wrapText text prefix_ displayWidth indent =
      render (indent ++ prefix_) (indent ++ List.replicate prefix_.length blank)
        (fill displayLength (displayWidth - prefix_.length - prefix_.length)
          (displayWidth - prefix_.length) [first] rest) := by
  -- The first line has the prefix and the first word on it when the loop begins.
  have counted : ((prefix_.length + displayLength first : Nat) : Int) =
      prefix_.length + width displayLength [first] := by simp [width]
  have looped := Filling.wrapLoop_eq (indent ++ List.replicate prefix_.length blank)
    (displayWidth - prefix_.length) (indent ++ prefix_) (List.cons_ne_nil first []) counted rest
  rw [← looped, wrapText, words, Filling.unwords, List.intercalate_singleton]

/-- The lines that are written are the only ones that the result can be made of. -/
theorem wrapped_iff_filled {first : List UInt8} {rest : List (List UInt8)}
    (words : Fields.fields text = first :: rest) :
    (∃ lines, Wrapped text prefix_ displayWidth indent
        (wrapText text prefix_ displayWidth indent) lines) ↔
      Filled displayLength (displayWidth - prefix_.length)
        (fill displayLength (displayWidth - prefix_.length - prefix_.length)
          (displayWidth - prefix_.length) [first] rest) := by
  have rendered : wrapText text prefix_ displayWidth indent = _ := wrapText_cons words
  have flatten := Filling.flatten_fill displayLength
    (displayWidth - prefix_.length - prefix_.length) (displayWidth - prefix_.length) [first] rest
  constructor
  · intro some_
    obtain ⟨lines, wrapped⟩ := some_
    obtain ⟨text_, flat, filled⟩ := wrapped_iff.mp wrapped
    -- Whatever lines are promised, the result can be read in one way only.
    have same := Filling.render_injective filled.some_ (Filling.ne_nil_of_mem_fill (by simp)) flat
      (flatten.trans words.symm) (text_.symm.trans rendered)
    exact same ▸ filled
  · intro filled
    exact ⟨_, wrapped_iff.mpr ⟨rendered, flatten.trans words.symm, filled⟩⟩

/-- Some first words of a text that fit into the first line, with the prefix before them. -/
def FitsBehind (text prefix_ : List UInt8) (displayWidth : Int) (front : List (List UInt8)) :
    Prop :=
  front <+: Fields.fields text ∧ 2 ≤ front.length ∧
    prefix_.length + width displayLength front ≤ displayWidth

/-- If the promise is kept, what fits in the first line leaves room for the prefix once more. -/
theorem roomy_of_wrapped (wrapped : ∃ lines, Wrapped text prefix_ displayWidth indent
      (wrapText text prefix_ displayWidth indent) lines) {front : List (List UInt8)}
    (fits : FitsBehind text prefix_ displayWidth front) :
    prefix_.length + width displayLength front ≤ displayWidth - prefix_.length := by
  -- Otherwise the first line would end before these words, although they fit.
  obtain ⟨begins, many, narrow⟩ := fits
  obtain ⟨first, more, rfl⟩ := List.exists_cons_of_length_pos (by omega : 0 < front.length)
  obtain ⟨rest, words⟩ := begins
  have words_ : Fields.fields text = first :: (more ++ rest) := words.symm
  have filled := (wrapped_iff_filled words_).mp wrapped
  have short := (Filling.fill_filled_iff (by omega) (by simp) (.inr rfl) _).mp filled more
    (by rintro rfl; simp at many) (List.prefix_append more rest)
  rw [List.singleton_append] at short
  have narrow_ := short (by omega)
  omega

/-- The promise is kept if and only if what fits in the first line leaves such room. -/
theorem wrapText_wrapped_iff :
    (∃ lines, Wrapped text prefix_ displayWidth indent
        (wrapText text prefix_ displayWidth indent) lines) ↔
      ∀ front, FitsBehind text prefix_ displayWidth front →
        prefix_.length + width displayLength front ≤ displayWidth - prefix_.length := by
  refine ⟨fun wrapped front => roomy_of_wrapped wrapped, fun roomy => ?_⟩
  cases words : Fields.fields text with
  | nil =>
    -- Without a word there is no line.
    refine ⟨[], wrapped_iff.mpr ⟨?_, words.symm, ⟨nofun, nofun, .nil⟩⟩⟩
    rw [wrapText, words]
    rfl
  | cons first rest =>
    -- The first word is in the first line anyway, so it is about those behind it.
    refine (wrapped_iff_filled words).mpr ?_
    refine (Filling.fill_filled_iff (by omega) (by simp) (.inr rfl) rest).mpr ?_
    intro more some_ begins narrow
    rw [List.singleton_append] at narrow ⊢
    have room := roomy (first :: more) ⟨?_, ?_, by omega⟩
    · omega
    · rw [words]
      exact List.cons_prefix_cons.mpr ⟨rfl, begins⟩
    · have positive := List.length_pos_of_ne_nil some_
      simp only [List.length_cons]
      omega

/-- Four PIDs that fit in a line of 32 columns behind `PIDs: {` are broken after the third one. -/
theorem wrapText_not_wrapped : ∃ text prefix_ displayWidth indent,
    ¬ ∃ lines, Wrapped text prefix_ displayWidth indent
      (wrapText text prefix_ displayWidth indent) lines := by
  -- `12345 12346 12347 12348}`
  refine ⟨[49, 50, 51, 52, 53, 32, 49, 50, 51, 52, 54, 32, 49, 50, 51, 52, 55, 32, 49, 50, 51, 52,
    56, 125], [80, 73, 68, 115, 58, 32, 123], 32, [], fun wrapped => ?_⟩
  have fits : FitsBehind [49, 50, 51, 52, 53, 32, 49, 50, 51, 52, 54, 32, 49, 50, 51, 52, 55, 32,
      49, 50, 51, 52, 56, 125] [80, 73, 68, 115, 58, 32, 123] 32 [[49, 50, 51, 52, 53],
        [49, 50, 51, 52, 54], [49, 50, 51, 52, 55], [49, 50, 51, 52, 56, 125]] :=
    ⟨by decide, by decide, by decide⟩
  exact absurd (roomy_of_wrapped wrapped fits) (by decide)

end SysProg.Cgroups
