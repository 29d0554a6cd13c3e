import Mathlib.Data.List.TakeWhile
import Mathlib.Tactic

/-! Arrays of characters that hold a string of C, and how `snprintf` and `strncpy` fill them. -/

namespace SysProg

/-- A string of C, without the null byte that ends it. -/
abbrev ByteString := { text : List UInt8 // 0 ∉ text }

/-- An array of so many characters, in which there may be anything. -/
abbrev CharArray (capacity : Nat) := { bytes : List UInt8 // bytes.length = capacity }

/-- An array of so many characters with a string in it, which ends before the first null byte. -/
structure StringBuffer (capacity : Nat) where
  bytes : List UInt8
  size : bytes.length = capacity
  terminated : 0 ∈ bytes

variable {capacity : Nat}

namespace ByteString

/-- What is before the first null byte has no null byte in it. -/
theorem notMem_takeWhile (bytes : List UInt8) : 0 ∉ bytes.takeWhile (· ≠ 0) :=
  fun mem => by simpa using List.mem_takeWhile_imp mem

/-- A string is what is before the null byte that ends it. -/
theorem takeWhile_append (text : ByteString) (rest : List UInt8) :
    (text.val ++ 0 :: rest).takeWhile (· ≠ 0) = text.val := by
  -- The text has no null byte before its end.
  have whole : ∀ byte ∈ text.val, (decide (byte ≠ 0)) = true := fun byte mem =>
    decide_eq_true fun same => text.property (same ▸ mem)
  rw [List.takeWhile_append_of_pos whole]
  simp

/-- The beginning of a string. -/
def take (text : ByteString) (count : Nat) : ByteString :=
  ⟨text.val.take count, fun mem => text.property (List.mem_of_mem_take mem)⟩

/-- A string from an offset on. -/
def drop (text : ByteString) (count : Nat) : ByteString :=
  ⟨text.val.drop count, fun mem => text.property (List.mem_of_mem_drop mem)⟩

/-- Two strings, one after the other. -/
def append (front back : ByteString) : ByteString :=
  ⟨front.val ++ back.val, List.not_mem_append front.property back.property⟩

end ByteString

namespace StringBuffer

/-- The string in an array. -/
def string (buffer : StringBuffer capacity) : ByteString :=
  ⟨buffer.bytes.takeWhile (· ≠ 0), ByteString.notMem_takeWhile buffer.bytes⟩

/-- The string is shorter than the array, which has room for the null byte behind it. -/
theorem length_string_lt (buffer : StringBuffer capacity) :
    buffer.string.val.length < capacity := by
  have front : buffer.string.val <+: buffer.bytes := List.takeWhile_prefix _
  refine lt_of_le_of_ne (front.length_le.trans_eq buffer.size) fun full => ?_
  -- Otherwise the string would be all there is, and there is a null byte.
  have whole := front.eq_of_length (full.trans buffer.size.symm)
  exact buffer.string.property (whole ▸ buffer.terminated)

/-- An array with a string in it, and with null bytes behind it. -/
def ofString (text : ByteString) (fits : text.val.length < capacity) : StringBuffer capacity where
  bytes := text.val ++ List.replicate (capacity - text.val.length) 0
  size := by
    simp only [List.length_append, List.length_replicate]
    omega
  terminated := List.mem_append_right _ (List.mem_replicate.mpr ⟨by omega, rfl⟩)

/-- `strncpy` to an array of the same size, in which null bytes fill what is behind the string. -/
def strncpy (source : StringBuffer capacity) : StringBuffer capacity :=
  ofString source.string source.length_string_lt

/--
`snprintf`, which cuts off what does not fit into an array, and ends the rest with a null byte.

The result is the length of the whole text.
-/
def snprintf (array : CharArray capacity) (positive : 0 < capacity) (text : ByteString) :
    StringBuffer capacity × Nat where
  fst :=
    { bytes := text.val.take (capacity - 1) ++
        0 :: array.val.drop ((text.val.take (capacity - 1)).length + 1)
      size := by
        have size := array.property
        simp only [List.length_append, List.length_cons, List.length_drop, List.length_take, size]
        omega
      terminated := by simp }
  snd := text.val.length

/-- The string that an array has been filled with. -/
theorem string_ofString {text : ByteString} (fits : text.val.length < capacity) :
    (ofString text fits).string = text := by
  -- There is room for a null byte behind the text.
  obtain ⟨more, room⟩ : ∃ more, capacity - text.val.length = more + 1 :=
    Nat.exists_eq_add_of_le' (by omega)
  refine Subtype.ext ?_
  have filled := text.takeWhile_append (List.replicate more 0)
  rwa [← List.replicate_succ, ← room] at filled

/-- The string is copied. -/
theorem string_strncpy (source : StringBuffer capacity) :
    (strncpy source).string = source.string :=
  string_ofString source.length_string_lt

/-- The string that `snprintf` has written. -/
theorem string_snprintf (array : CharArray capacity) (positive : 0 < capacity) (text : ByteString) :
    (snprintf array positive text).1.string = text.take (capacity - 1) :=
  Subtype.ext ((text.take (capacity - 1)).takeWhile_append _)

end StringBuffer

end SysProg
