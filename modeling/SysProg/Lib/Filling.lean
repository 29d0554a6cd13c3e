import Mathlib.Tactic

/-! Filling lines with words, as many as fit, and the loop that writes the lines to a text. -/

namespace SysProg.Filling

section Lines

variable {Word : Type*} (size : Word → Nat)

/-- The width of a line, with one blank between two words. -/
def width : List Word → Nat
  | [] => 0
  | [word] => size word
  | word :: next :: rest => size word + 1 + width (next :: rest)

/-- Puts words into lines, the first of which has been begun and has a limit of its own. -/
def fill (first limit : Int) (line : List Word) : List Word → List (List Word)
  | [] => [line]
  | word :: rest =>
    if width size line + 1 + size word > first then line :: fill limit limit [word] rest
    else fill first limit (line ++ [word]) rest

/-- Words are put into lines in such a way that no line could be longer. -/
structure Filled (limit : Int) (lines : List (List Word)) : Prop where
  some_ : ∀ line ∈ lines, line ≠ []
  /-- No line is too wide, unless it has only one word. -/
  fits : ∀ line ∈ lines, width size line ≤ limit ∨ line.length = 1
  /-- With the first word of the next line, a line would be too wide. -/
  breaks : lines.IsChain fun line next =>
    ∃ word rest, next = word :: rest ∧ limit < width size line + 1 + size word

variable {size}

/-- One more word makes a line wider by the word and a blank. -/
theorem width_append {line : List Word} (some_ : line ≠ []) (word : Word) :
    width size (line ++ [word]) = width size line + 1 + size word := by
  -- The induction takes the first word off, down to a line of one word.
  induction line with
  | nil => exact absurd rfl some_
  | cons first rest ih =>
    cases rest with
    | nil => rfl
    | cons next rest =>
      simp only [List.cons_append, width] at ih ⊢
      rw [ih (List.cons_ne_nil next rest)]
      omega

/-- More words make a line wider. -/
theorem width_le_append {line : List Word} (some_ : line ≠ []) (more : List Word) :
    width size line ≤ width size (line ++ more) := by
  -- By induction on the words that are added.
  induction more generalizing line with
  | nil => rw [List.append_nil]
  | cons word more ih =>
    have longer := ih (List.append_ne_nil_of_right_ne_nil line (List.cons_ne_nil word []))
    rw [width_append some_, List.append_assoc, List.singleton_append] at longer
    omega

/-- All words are put into lines, in order. -/
theorem flatten_fill (size : Word → Nat) (first limit : Int) (line rest : List Word) :
    (fill size first limit line rest).flatten = line ++ rest := by
  -- The induction follows the loop: the text ends, a line ends, or a line gets longer.
  fun_induction fill size first limit line rest with
  | case1 first line => simp
  | case2 first line word rest wide ih => simp [ih]
  | case3 first line word rest fits ih => simp [ih]

/-- No line is empty. -/
theorem ne_nil_of_mem_fill {first limit : Int} {line rest : List Word} (some_ : line ≠ []) :
    ∀ other ∈ fill size first limit line rest, other ≠ [] := by
  -- By the cases of the filling; every line begins with a word.
  fun_induction fill size first limit line rest with
  | case1 first line => simpa using some_
  | case2 first line word rest wide ih =>
    exact List.forall_mem_cons.mpr ⟨some_, ih (by simp)⟩
  | case3 first line word rest fits ih => exact ih (by simp)

/-- The first line begins as it has been begun. -/
theorem exists_fill_eq (size : Word → Nat) (first limit : Int) (line rest : List Word) :
    ∃ more later, fill size first limit line rest = (line ++ more) :: later := by
  -- By the cases of the filling: the text ends, a line is full, or the word goes on it.
  fun_induction fill size first limit line rest with
  | case1 first line => exact ⟨[], [], by simp⟩
  | case2 first line word rest wide ih =>
    exact ⟨[], fill size limit limit [word] rest, by simp⟩
  | case3 first line word rest fits ih =>
    obtain ⟨more, later, same⟩ := ih
    exact ⟨word :: more, later, by rw [same]; simp⟩

/-- Lines remain filled when a line is put before them that could not be longer. -/
theorem Filled.cons {limit : Int} {line : List Word} {word : Word} {rest : List Word}
    {lines : List (List Word)} (filled : Filled size limit ((word :: rest) :: lines))
    (some_ : line ≠ []) (fits : width size line ≤ limit ∨ line.length = 1)
    (wide : limit < width size line + 1 + size word) :
    Filled size limit (line :: (word :: rest) :: lines) where
  -- The new line is broken before the word that begins the next one.
  some_ := List.forall_mem_cons.mpr ⟨some_, filled.some_⟩
  fits := List.forall_mem_cons.mpr ⟨fits, filled.fits⟩
  breaks := List.isChain_cons_cons.mpr
    ⟨⟨word, rest, rfl, wide⟩, filled.breaks⟩

/-- The lines of the loop are filled, where the first one has the same limit as the others. -/
theorem fill_filled (limit : Int) {line : List Word} (some_ : line ≠ [])
    (fits : width size line ≤ limit ∨ line.length = 1) (rest : List Word) :
    Filled size limit (fill size limit limit line rest) := by
  -- The induction takes one word after the other, into the line or into a new one.
  induction rest generalizing line with
  -- The line that has been begun is the only one.
  | nil => exact ⟨by simpa [fill] using some_, by simpa [fill] using fits, by simp [fill]⟩
  | cons word rest ih =>
    unfold fill
    split
    next wide =>
      have later := ih (List.cons_ne_nil word []) (.inr rfl)
      obtain ⟨more, lines, same⟩ := exists_fill_eq size limit limit [word] rest
      rw [same] at later ⊢
      exact later.cons some_ fits (by omega)
    next narrow =>
      refine ih (by simp) (.inl ?_)
      rw [width_append some_]
      push_cast
      omega

/--
With a limit of its own, the first line is filled unless it stops at words that would still fit.
-/
theorem fill_filled_iff {first limit : Int} (narrower : first ≤ limit) {line : List Word}
    (some_ : line ≠ []) (fits : width size line ≤ limit ∨ line.length = 1) (rest : List Word) :
    Filled size limit (fill size first limit line rest) ↔
      ∀ more, more ≠ [] → more <+: rest → width size (line ++ more) ≤ limit →
        width size (line ++ more) ≤ first := by
  -- The induction goes through the first line; from the second one on, lines are filled anyway.
  induction rest generalizing line with
  | nil =>
    refine ⟨fun _ more nonempty front => absurd (List.prefix_nil.mp front) nonempty, fun _ => ?_⟩
    exact ⟨by simpa [fill] using some_, by simpa [fill] using fits, by simp [fill]⟩
  | cons word rest ih =>
    have one : width size (line ++ [word]) = _ := width_append some_ word
    unfold fill
    split
    next wide =>
      -- The line ends here, which is right if the word does not fit.
      obtain ⟨more, lines, same⟩ := exists_fill_eq size limit limit [word] rest
      have later : Filled size limit (fill size limit limit [word] rest) :=
        fill_filled limit (by simp) (.inr rfl) rest
      rw [same] at later ⊢
      constructor
      · intro filled more nonempty front thin
        obtain ⟨_, _, begins, broken⟩ := (List.isChain_cons_cons.mp filled.breaks).1
        obtain rfl := List.head_eq_of_cons_eq begins
        obtain ⟨others, rfl⟩ : ∃ others, more = word :: others := by
          obtain ⟨first_, others, rfl⟩ := List.exists_cons_of_ne_nil nonempty
          exact ⟨others, by rw [(List.cons_prefix_cons.mp front).1]⟩
        have wider : width size (line ++ [word]) ≤ width size (line ++ [word] ++ others) :=
          width_le_append (by simp) others
        rw [List.append_assoc, List.singleton_append] at wider
        omega
      · intro stops
        refine later.cons some_ fits ?_
        by_contra thin
        have short := stops [word] (by simp) (by simp) (by omega)
        omega
    next narrow =>
      -- The word is put into the line, and the question is about the words behind it.
      have fits_ : width size (line ++ [word]) ≤ limit ∨ (line ++ [word]).length = 1 := by
        left
        omega
      rw [ih (by simp) fits_]
      constructor
      · intro stops more nonempty front thin
        obtain ⟨first_, others, rfl⟩ := List.exists_cons_of_ne_nil nonempty
        obtain ⟨rfl, front_⟩ := List.cons_prefix_cons.mp front
        by_cases last : others = []
        · subst last
          omega
        · have short := stops others last front_
          rw [List.append_assoc, List.singleton_append] at short
          exact short thin
      · intro stops more nonempty front thin
        have short := stops (word :: more) (by simp) (List.cons_prefix_cons.mpr ⟨rfl, front⟩)
        rw [List.append_assoc, List.singleton_append] at thin ⊢
        exact short thin

end Lines

/-- The byte of a line feed. -/
def newline : UInt8 := 10

/-- The byte of a blank. -/
def blank : UInt8 := 32

/-- The words of a line, with a blank between two words. -/
def unwords (line : List (List UInt8)) : List UInt8 :=
  [blank].intercalate line

/-- The text of lines, each behind a margin, where the first line has a margin of its own. -/
def render (head margin : List UInt8) : List (List (List UInt8)) → List UInt8
  | [] => []
  | [line] => head ++ unwords line
  | line :: next :: rest =>
    head ++ unwords line ++ newline :: render margin margin (next :: rest)

/-- The loop that appends one word after the other to a text, of which it counts the columns. -/
def wrapLoop (size : List UInt8 → Nat) (limit : Int) (margin text : List UInt8) (column : Int) :
    List (List UInt8) → List UInt8
  | [] => text
  | word :: rest =>
    if column + size word + 1 > limit then
      wrapLoop size limit margin (text ++ newline :: (margin ++ word)) (size word) rest
    else wrapLoop size limit margin (text ++ blank :: word) (column + 1 + size word) rest

section Text

variable {size : List UInt8 → Nat} {margin : List UInt8}

/-- Words and more words, with a blank between them. -/
theorem unwords_append {front back : List (List UInt8)} (some_ : front ≠ []) (more : back ≠ []) :
    unwords (front ++ back) = unwords front ++ blank :: unwords back := by
  -- The induction takes the first word off, down to a single one.
  induction front with
  | nil => exact absurd rfl some_
  | cons first rest ih =>
    cases rest with
    | nil =>
      rw [List.singleton_append, unwords, List.intercalate_cons_of_ne_nil more]
      simp [unwords]
    | cons next rest =>
      have later := ih (List.cons_ne_nil next rest)
      simp only [unwords, List.cons_append, List.intercalate_cons_cons] at later ⊢
      rw [later]
      simp

/-- What is in the text of words is a blank, or in a word. -/
theorem mem_unwords {byte : UInt8} {line : List (List UInt8)} (mem : byte ∈ unwords line) :
    byte = blank ∨ ∃ word ∈ line, byte ∈ word := by
  -- By induction on the words; between two of them stands a blank.
  induction line with
  | nil => cases mem
  | cons first rest ih =>
    cases rest with
    | nil => exact .inr ⟨first, List.mem_cons_self, by simpa [unwords] using mem⟩
    | cons next rest =>
      have split_ : byte ∈ first ++ blank :: unwords (next :: rest) := by
        simpa [unwords, List.intercalate_cons_cons] using mem
      rcases List.mem_append.mp split_ with here | later
      · exact .inr ⟨first, List.mem_cons_self, here⟩
      · rcases List.mem_cons.mp later with same | later
        · exact .inl same
        · exact (ih later).imp_right fun ⟨word, among, inside⟩ =>
            ⟨word, List.mem_cons_of_mem _ among, inside⟩

/-- The text of words is as long as the line is wide, if a word is as wide as it is long. -/
theorem length_unwords (line : List (List UInt8)) :
    (unwords line).length = width List.length line := by
  -- By induction on the words, one column for each blank between them.
  induction line with
  | nil => rfl
  | cons first rest ih =>
    cases rest with
    | nil => simp [unwords, width]
    | cons next rest =>
      rw [width, ← ih]
      simp [unwords, List.intercalate_cons_cons]
      omega

/-- What is before the margin of the first line is before the text. -/
theorem render_append (margin front head : List UInt8) {lines : List (List (List UInt8))}
    (some_ : lines ≠ []) :
    render (front ++ head) margin lines = front ++ render head margin lines := by
  -- What stands in front of the first line stands in front of the text.
  match lines with
  | [] => exact absurd rfl some_
  | [line] => simp [render]
  | line :: next :: rest => simp [render]

/-- The loop writes filled lines, where the column counts what is before the first line, too. -/
theorem wrapLoop_eq (margin : List UInt8) (limit : Int) (head : List UInt8)
    {line : List (List UInt8)} (some_ : line ≠ []) {offset column : Int}
    (counted : column = offset + width size line) (rest : List (List UInt8)) :
    wrapLoop size limit margin (head ++ unwords line) column rest =
      render head margin (fill size (limit - offset) limit line rest) := by
  -- The induction follows the loop; what has been written becomes part of the margin.
  induction rest generalizing head line offset column with
  | nil => rfl
  | cons word rest ih =>
    unfold wrapLoop fill
    by_cases wide : column + size word + 1 > limit
    · rw [if_pos wide, if_pos (by omega)]
      have written : head ++ unwords line ++ newline :: (margin ++ word) =
          (head ++ unwords line ++ newline :: margin) ++ unwords [word] := by
        simp [unwords]
      have alone : (size word : Int) = 0 + width size [word] := by simp [width]
      rw [written, ih _ (List.cons_ne_nil word []) alone, sub_zero]
      obtain ⟨more, lines, same⟩ := exists_fill_eq size limit limit [word] rest
      rw [same]
      have moved := render_append margin (head ++ unwords line ++ [newline]) margin
        (List.cons_ne_nil ([word] ++ more) lines)
      simpa [render] using moved
    · rw [if_neg wide, if_neg (by omega)]
      have written : head ++ unwords line ++ blank :: word = head ++ unwords (line ++ [word]) := by
        rw [unwords_append some_ (by simp)]
        simp [unwords]
      rw [written]
      refine ih head (by simp) ?_
      rw [width_append some_, counted]
      push_cast
      ring

/-- The text of one margin for all lines. -/
theorem render_eq_intercalate (margin : List UInt8) (lines : List (List (List UInt8))) :
    render margin margin lines =
      [newline].intercalate (lines.map fun line => margin ++ unwords line) := by
  -- By induction on the lines, each of which begins with the margin.
  induction lines with
  | nil => rfl
  | cons line rest ih =>
    cases rest with
    | nil => simp [render]
    | cons next rest =>
      rw [render, ih]
      simp [List.intercalate_cons_cons]

/-- The lines of a text, where neither the margin nor a word contains a line feed. -/
theorem splitOn_render {lines : List (List (List UInt8))} (some_ : lines ≠ [])
    (margin_ : newline ∉ margin) (words : ∀ line ∈ lines, ∀ word ∈ line, newline ∉ word) :
    (render margin margin lines).splitOn newline =
      lines.map fun line => margin ++ unwords line := by
  -- No line contains what separates them.
  rw [render_eq_intercalate]
  refine List.splitOn_intercalate newline (fun part mem => ?_) (by simpa using some_)
  obtain ⟨line, among, rfl⟩ := List.mem_map.mp mem
  refine List.not_mem_append margin_ fun inside => ?_
  rcases mem_unwords inside with same | ⟨word, here, inside⟩
  · exact absurd same (by decide)
  · exact words line among word here inside

/-- Lines without their margins, with a blank between two of them, are all the words. -/
theorem intercalate_unwords {lines : List (List (List UInt8))} (some_ : ∀ line ∈ lines, line ≠ []) :
    [blank].intercalate (lines.map unwords) = unwords lines.flatten := by
  -- By induction on the lines, which are not empty, so that a blank joins the words of two of them.
  induction lines with
  | nil => rfl
  | cons line rest ih =>
    obtain ⟨here, later⟩ := List.forall_mem_cons.mp some_
    cases rest with
    | nil => simp
    | cons next rest =>
      have nonempty : (next :: rest).flatten ≠ [] := by
        simpa using fun nothing => absurd nothing (later next List.mem_cons_self)
      rw [List.flatten_cons, unwords_append here nonempty, ← ih later, List.map_cons,
        List.intercalate_cons_of_ne_nil (by simp)]
      simp

/-- What is behind the first word of a text: nothing, the rest of its line, or the next line. -/
inductive Behind (margin word : List UInt8) : List (List (List UInt8)) → List UInt8 → Prop where
  | nothing : Behind margin word [[word]] []
  | sameLine (next : List UInt8) (line : List (List UInt8)) (lines : List (List (List UInt8))) :
      Behind margin word ((word :: next :: line) :: lines)
        (blank :: render [] margin ((next :: line) :: lines))
  | nextLine (line : List (List UInt8)) (lines : List (List (List UInt8))) :
      Behind margin word ([word] :: line :: lines) (newline :: render margin margin (line :: lines))

/-- The text of lines is the head, the first word, and what is behind it. -/
theorem exists_behind {word : List UInt8} {words : List (List UInt8)}
    {lines : List (List (List UInt8))} (some_ : ∀ line ∈ lines, line ≠ [])
    (flat : lines.flatten = word :: words) (head margin : List UInt8) :
    ∃ tail, render head margin lines = head ++ word ++ tail ∧ Behind margin word lines tail := by
  -- The first word is the last of the text, the last of its line, or neither.
  match lines, some_, flat with
  | [] :: _, some_, _ => exact absurd rfl (some_ [] List.mem_cons_self)
  | [[_]], _, rfl => exact ⟨[], by simp [render, unwords], .nothing⟩
  | [_] :: line :: lines, _, rfl =>
    exact ⟨newline :: render margin margin (line :: lines), by simp [render, unwords],
      .nextLine line lines⟩
  | (_ :: next :: line) :: lines, _, rfl =>
    refine ⟨blank :: render [] margin ((next :: line) :: lines), ?_, .sameLine next line lines⟩
    cases lines <;> simp [render, unwords, List.intercalate_cons_cons]

/-- A text determines its lines, if it is known of which words they are. -/
theorem render_injective {words : List (List UInt8)} {head : List UInt8}
    {one two : List (List (List UInt8))} (some_ : ∀ line ∈ one, line ≠ [])
    (someToo : ∀ line ∈ two, line ≠ []) (flat : one.flatten = words)
    (flatToo : two.flatten = words) (same : render head margin one = render head margin two) :
    one = two := by
  -- The induction takes one word after the other; what is behind it is told by its first byte.
  induction words generalizing head one two with
  | nil =>
    have none_ : ∀ lines : List (List (List UInt8)), (∀ line ∈ lines, line ≠ []) →
        lines.flatten = [] → lines = [] := by
      intro lines some_ flat
      refine List.eq_nil_iff_forall_not_mem.mpr fun line mem => some_ line mem ?_
      exact List.flatten_eq_nil_iff.mp flat line mem
    rw [none_ one some_ flat, none_ two someToo flatToo]
  | cons word words ih =>
    obtain ⟨tail, text, behind⟩ := exists_behind some_ flat head margin
    obtain ⟨tailToo, textToo, behindToo⟩ := exists_behind someToo flatToo head margin
    have tails : tail = tailToo := by
      rw [text, textToo] at same
      exact List.append_cancel_left same
    cases behind with
    | nothing =>
      cases behindToo with
      | nothing => rfl
      | sameLine => cases tails
      | nextLine => cases tails
    | sameLine next line lines =>
      cases behindToo with
      | nothing => cases tails
      | sameLine nextToo lineToo linesToo =>
        have rest : (next :: line) :: lines = (nextToo :: lineToo) :: linesToo := ih
          (List.forall_mem_cons.mpr ⟨by simp, (List.forall_mem_cons.mp some_).2⟩)
          (List.forall_mem_cons.mpr ⟨by simp, (List.forall_mem_cons.mp someToo).2⟩)
          (List.tail_eq_of_cons_eq flat) (List.tail_eq_of_cons_eq flatToo)
          (List.tail_eq_of_cons_eq tails)
        obtain ⟨first, others⟩ := List.cons.inj rest
        rw [first, others]
      | nextLine => exact absurd (List.head_eq_of_cons_eq tails) (by decide)
    | nextLine line lines =>
      cases behindToo with
      | nothing => cases tails
      | sameLine => exact absurd (List.head_eq_of_cons_eq tails) (by decide)
      | nextLine lineToo linesToo =>
        have rest : line :: lines = lineToo :: linesToo := ih
          (List.forall_mem_cons.mp some_).2 (List.forall_mem_cons.mp someToo).2
          (List.tail_eq_of_cons_eq flat) (List.tail_eq_of_cons_eq flatToo)
          (List.tail_eq_of_cons_eq tails)
        rw [rest]

end Text

end SysProg.Filling
