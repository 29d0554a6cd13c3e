import Mathlib.Tactic

/-! The words of a text in UTF-8, which are separated by white space. -/

namespace SysProg.Fields

/-- The characters that `unicode.IsSpace` accepts, as they are encoded in UTF-8. -/
def whiteSpace : List (List UInt8) :=
  -- Tab, line feed, vertical tab, form feed, carriage return, blank.
  [[0x09], [0x0A], [0x0B], [0x0C], [0x0D], [0x20],
  -- U+0085, U+00A0, U+1680.
    [0xC2, 0x85], [0xC2, 0xA0], [0xE1, 0x9A, 0x80],
  -- U+2000 to U+200A.
    [0xE2, 0x80, 0x80], [0xE2, 0x80, 0x81], [0xE2, 0x80, 0x82], [0xE2, 0x80, 0x83],
    [0xE2, 0x80, 0x84], [0xE2, 0x80, 0x85], [0xE2, 0x80, 0x86], [0xE2, 0x80, 0x87],
    [0xE2, 0x80, 0x88], [0xE2, 0x80, 0x89], [0xE2, 0x80, 0x8A],
  -- U+2028, U+2029, U+202F, U+205F, U+3000.
    [0xE2, 0x80, 0xA8], [0xE2, 0x80, 0xA9], [0xE2, 0x80, 0xAF], [0xE2, 0x81, 0x9F],
    [0xE3, 0x80, 0x80]]

/--
The number of bytes of the white space with which a text begins, which is 0 if there is none.

No encoding occurs inside the encoding of another character, so it can be looked for at any byte.
-/
def spaceLength (text : List UInt8) : Nat :=
  ((whiteSpace.find? fun space => space.isPrefixOf text).map List.length).getD 0

/-- A field that has come to its end, unless it is empty. -/
def close (field : List UInt8) : List (List UInt8) :=
  if field = [] then [] else [field]

/-- The fields of a text, where some bytes of white space are left, and a field has been begun. -/
def fieldsFrom (skip : Nat) (field : List UInt8) : List UInt8 → List (List UInt8)
  | [] => close field
  | byte :: rest =>
    if 0 < skip then fieldsFrom (skip - 1) field rest
    else
      match spaceLength (byte :: rest) with
      | 0 => fieldsFrom 0 (field ++ [byte]) rest
      | more + 1 => close field ++ fieldsFrom more [] rest

/-- `strings.Fields`: the words around one or more characters of white space. -/
def fields (text : List UInt8) : List (List UInt8) :=
  fieldsFrom 0 [] text

/-- White space of a single byte is recognised whatever follows. -/
theorem spaceLength_ne_zero {byte : UInt8} (space : [byte] ∈ whiteSpace) (rest : List UInt8) :
    spaceLength (byte :: rest) ≠ 0 := by
  -- Some white space is found, and none of it is empty.
  have long : ∀ space ∈ whiteSpace, space.length ≠ 0 := by decide
  unfold spaceLength
  cases found : whiteSpace.find? fun space => space.isPrefixOf (byte :: rest) with
  | none =>
    refine absurd (List.find?_eq_none.mp found [byte] space) (not_not.mpr ?_)
    simp [List.isPrefixOf]
  | some space => exact long space (List.mem_of_find?_eq_some found)

/-- A byte that is white space by itself is in no field. -/
theorem fieldsFrom_words {byte : UInt8} (space : [byte] ∈ whiteSpace) (skip : Nat)
    (field text : List UInt8) (begun : byte ∉ field) :
    ∀ word ∈ fieldsFrom skip field text, word ≠ [] ∧ byte ∉ word := by
  have closed : ∀ field : List UInt8, byte ∉ field →
      ∀ word ∈ close field, word ≠ [] ∧ byte ∉ word := by
    intro field absent word mem
    unfold close at mem
    split at mem
    next => cases mem
    next some_ =>
      obtain rfl := List.mem_singleton.mp mem
      exact ⟨some_, absent⟩
  -- The induction takes one byte of the text after the other.
  induction text generalizing skip field with
  | nil => exact closed field begun
  | cons first rest ih =>
    unfold fieldsFrom
    split
    next => exact ih (skip - 1) field begun
    next =>
      split
      next none_ =>
        refine ih 0 (field ++ [first]) fun mem => ?_
        rcases List.mem_append.mp mem with old | new
        · exact begun old
        · obtain rfl := List.mem_singleton.mp new
          exact spaceLength_ne_zero space rest none_
      next more _ =>
        intro word mem
        rcases List.mem_append.mp mem with here | later
        · exact closed field begun word here
        · exact ih more [] List.not_mem_nil word later

/-- No field is empty, or has a byte that is white space by itself. -/
theorem mem_fields {byte : UInt8} (space : [byte] ∈ whiteSpace) {text word : List UInt8}
    (mem : word ∈ fields text) : word ≠ [] ∧ byte ∉ word :=
  fieldsFrom_words space 0 [] text List.not_mem_nil word mem

/-- Blanks of several kinds around words: a line feed, and U+2003. -/
example : fields [0x20, 97, 98, 0x0A, 0x20, 99, 0xE2, 0x80, 0x83, 100] =
    [[97, 98], [99], [100]] := by
  decide

end SysProg.Fields
