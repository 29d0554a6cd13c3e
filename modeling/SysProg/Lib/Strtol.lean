import Mathlib.Data.List.TakeWhile
import SysProg.Lib.Decimal

/-! How `strtol` and `atoi` read the number at the beginning of a string. -/

namespace SysProg.Strtol

open SysProg.Decimal

/-- `LONG_MAX`. -/
def longMax : Int := 2 ^ 63 - 1

/-- `LONG_MIN`. -/
def longMin : Int := -2 ^ 63

/-- The nearest number that a `long` can hold. -/
def clamp (number : Int) : Int :=
  max longMin (min number longMax)

/-- The sign at the beginning of a text, as a factor, and what is behind it. -/
def readSign : List UInt8 → Int × List UInt8
  -- '-'
  | 45 :: rest => (-1, rest)
  -- '+'
  | 43 :: rest => (1, rest)
  | rest => (1, rest)

/-- `strtol(text, &endptr, 10)`: the number, and the text from `endptr` on. -/
def strtol (text : List UInt8) : Int × List UInt8 :=
  let (factor, body) := readSign (text.dropWhile isSpace)
  -- Without a single digit there is no number, and nothing has been read.
  if body.head?.any isDigit then
    (clamp (factor * digitsValue (body.takeWhile isDigit)), body.dropWhile isDigit)
  else (0, text)

/-- `atoi`, which is `(int) strtol(text, NULL, 10)`. -/
def atoi (text : List UInt8) : Int :=
  (strtol text).1.bmod (2 ^ 32)

/-- What may stand before the digits of a number. -/
inductive Sign where
  | none
  | plus
  | minus
  deriving DecidableEq, Repr

/-- A sign as it is written. -/
def Sign.text : Sign → List UInt8
  | .none => []
  | .plus => [43]
  | .minus => [45]

/-- What a sign makes of a number. -/
def Sign.factor : Sign → Int
  | .minus => -1
  | _ => 1

/-- Digits with an optional sign. -/
structure Numeral where
  sign : Sign
  digits : List UInt8
  some_ : digits ≠ []
  isDigit : ∀ byte ∈ digits, isDigit byte = true

/-- A numeral as it is written. -/
def Numeral.text (numeral : Numeral) : List UInt8 :=
  numeral.sign.text ++ numeral.digits

/-- The number that a numeral denotes. -/
def Numeral.value (numeral : Numeral) : Int :=
  numeral.sign.factor * digitsValue numeral.digits

/-- The numeral of a natural number. -/
def Numeral.ofNat (number : Nat) : Numeral where
  sign := .none
  digits := natText number
  some_ := (natText_isDigit number).1
  isDigit := (natText_isDigit number).2

/-- It is the text that is printed. -/
@[simp] theorem Numeral.text_ofNat (number : Nat) :
    (Numeral.ofNat number).text = natText number :=
  rfl

/-- It denotes the number. -/
@[simp] theorem Numeral.value_ofNat (number : Nat) : (Numeral.ofNat number).value = number := by
  show 1 * (digitsValue (natText number) : Int) = number
  rw [one_mul, digitsValue_natText]

/-- The sign of a numeral is read, and the digits are behind it. -/
theorem readSign_text (numeral : Numeral) :
    readSign (numeral.text.dropWhile isSpace) = (numeral.sign.factor, numeral.digits) := by
  -- A sign is taken away, and a digit is none.
  obtain ⟨sign, digits, some_, isDigit_⟩ := numeral
  cases sign with
  | none =>
    obtain ⟨first, rest, rfl⟩ := List.exists_cons_of_ne_nil some_
    obtain ⟨space, minus, plus⟩ := not_space_of_isDigit (isDigit_ first List.mem_cons_self)
    show readSign ((first :: rest).dropWhile isSpace) = (1, first :: rest)
    rw [List.dropWhile_cons_of_neg (by simp [space])]
    unfold readSign
    split
    · rename_i same
      exact absurd (List.cons.inj same).1 minus
    · rename_i same
      exact absurd (List.cons.inj same).1 plus
    · rfl
  | plus => rfl
  | minus => rfl

/-- A numeral is read as a whole, as the nearest number that a `long` can hold. -/
theorem strtol_text (numeral : Numeral) : strtol numeral.text = (clamp numeral.value, []) := by
  -- A numeral has a digit behind its sign, and nothing but digits.
  have first : numeral.digits.head?.any isDigit = true := by
    obtain ⟨first, rest, same⟩ := List.exists_cons_of_ne_nil numeral.some_
    rw [same, List.head?_cons, Option.any_some]
    exact numeral.isDigit first (same ▸ List.mem_cons_self)
  have digits : numeral.digits.takeWhile isDigit = numeral.digits :=
    List.takeWhile_eq_self_iff.mpr numeral.isDigit
  have behind : numeral.digits.dropWhile isDigit = [] :=
    List.dropWhile_eq_nil_iff.mpr numeral.isDigit
  rw [strtol, readSign_text]
  simp only [first, if_true, digits, behind]
  rfl

/-- A number that fits is not changed. -/
theorem clamp_eq_self {number : Int} (low : longMin ≤ number) (high : number ≤ longMax) :
    clamp number = number := by
  rw [clamp, min_eq_left high, max_eq_right low]

/-- `atoi` is an `int`. -/
theorem atoi_bounds (text : List UInt8) : -2 ^ 31 ≤ atoi text ∧ atoi text < 2 ^ 31 := by
  -- The long is cut to 32 bits.
  have low := Int.le_bmod (x := (strtol text).1) (m := 2 ^ 32) (by decide)
  have high := Int.bmod_lt (x := (strtol text).1) (m := 2 ^ 32) (by decide)
  rw [atoi]
  norm_num at low high ⊢
  exact ⟨low, high⟩

/-- A printed number that a `long` can hold is read back by `atoi` if and only if it is an `int`. -/
theorem atoi_natText_iff {number : Nat} (fits : number < 2 ^ 63) :
    atoi (natText number) = number ↔ number < 2 ^ 31 := by
  constructor
  · intro same
    have high := (atoi_bounds (natText number)).2
    rw [same] at high
    exact_mod_cast high
  · intro small
    -- Nothing is cut off on the way.
    have read := strtol_text (Numeral.ofNat number)
    rw [Numeral.text_ofNat, Numeral.value_ofNat,
      clamp_eq_self (by unfold longMin; omega) (by unfold longMax; omega)] at read
    rw [atoi, read]
    refine Int.bmod_eq_of_le_mul_two ?_ ?_ <;> norm_num <;> omega

end SysProg.Strtol
