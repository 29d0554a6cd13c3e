import Mathlib.Tactic

/-! Decimal numerals as bytes: how a number is printed, and how a text is read as a number. -/

namespace SysProg.Decimal

/-- The numeral of a natural number, without leading zeros. -/
def natText (number : Nat) : List UInt8 :=
  (Nat.toDigits 10 number).map fun digit => digit.toNat.toUInt8

/-- The numeral of an integer, as `printf` prints it for `%d`. -/
def intText (number : Int) : List UInt8 :=
  if number < 0 then 45 :: natText number.natAbs else natText number.natAbs

/-- A byte is one of the ten digits. -/
def isDigit (byte : UInt8) : Bool :=
  48 ≤ byte && byte ≤ 57

/-- A byte is white space, as `isspace` has it. -/
def isSpace (byte : UInt8) : Bool :=
  byte == 32 || (9 ≤ byte && byte ≤ 13)

/-- The number that a text of digits denotes. -/
def digitsValue (digits : List UInt8) : Nat :=
  digits.foldl (fun value digit => 10 * value + (digit.toNat - 48)) 0

/-- The number at the beginning of a text that starts with its digits, if with anything. -/
def readNat (text : List UInt8) : Nat :=
  digitsValue (text.takeWhile isDigit)

/-- The integer at the beginning of a text, after white space and an optional sign. -/
def readInt (text : List UInt8) : Int :=
  match text.dropWhile isSpace with
  | 45 :: rest => -readNat rest
  | 43 :: rest => readNat rest
  | rest => readNat rest

/-- The byte of a single digit. -/
theorem toUInt8_digitChar {digit : Nat} (single : digit < 10) :
    (Nat.digitChar digit).toNat.toUInt8 = (48 + digit).toUInt8 := by
  interval_cases digit <;> rfl

/-- The byte of a single digit is a digit, and denotes it. -/
theorem isDigit_digit {digit : Nat} (single : digit < 10) :
    isDigit (48 + digit).toUInt8 = true ∧ (48 + digit).toUInt8.toNat = 48 + digit := by
  interval_cases digit <;> decide

/-- The last digit comes off the end of a numeral. -/
theorem natText_eq (number : Nat) :
    natText number =
      (if number < 10 then [] else natText (number / 10)) ++ [(48 + number % 10).toUInt8] := by
  unfold natText
  rw [Nat.toDigits_eq_if (by omega)]
  -- A number below ten is its own last digit.
  split
  · rename_i single
    simp [toUInt8_digitChar single, Nat.mod_eq_of_lt single]
  · simp [toUInt8_digitChar (Nat.mod_lt number (by omega : 0 < 10))]

/-- A numeral has at least one byte, and digits only. -/
theorem natText_isDigit (number : Nat) :
    natText number ≠ [] ∧ ∀ byte ∈ natText number, isDigit byte = true := by
  -- The induction takes the last digit off.
  induction number using Nat.strong_induction_on with
  | _ number ih =>
    rw [natText_eq]
    refine ⟨by simp, fun byte mem => ?_⟩
    rcases List.mem_append.mp mem with before | last
    · split at before
      · simp at before
      · exact (ih (number / 10) (by omega)).2 byte before
    · rw [List.mem_singleton.mp last]
      exact (isDigit_digit (Nat.mod_lt number (by omega))).1

/-- A numeral denotes the number it was made of. -/
theorem digitsValue_natText (number : Nat) : digitsValue (natText number) = number := by
  induction number using Nat.strong_induction_on with
  | _ number ih =>
    have last := (isDigit_digit (Nat.mod_lt number (by omega : 0 < 10))).2
    rw [natText_eq, digitsValue, List.foldl_append]
    split
    · simp only [List.foldl_nil, List.foldl_cons, last]
      omega
    · -- The digits before the last one denote the number without it.
      have before := ih (number / 10) (by omega)
      unfold digitsValue at before
      simp only [List.foldl_nil, List.foldl_cons, last, before]
      omega

/-- A number below a power of ten has at most as many digits. -/
theorem length_natText_le (number digits : Nat) (some_ : 0 < digits)
    (below : number < 10 ^ digits) : (natText number).length ≤ digits := by
  induction digits generalizing number with
  | zero => omega
  | succ digits ih =>
    rw [natText_eq, List.length_append, List.length_singleton]
    split
    · simp
    · rename_i several
      -- A number with a second digit leaves a digit to the number without its last one.
      have more : 0 < digits := by
        by_contra single
        have none_ : digits = 0 := by omega
        subst none_
        simp at below
        omega
      have shorter : number / 10 < 10 ^ digits := by
        rw [pow_succ] at below
        omega
      have := ih (number / 10) more shorter
      omega

/-- The digits at the beginning of a text are read up to the first other byte. -/
theorem readNat_natText (number : Nat) {rest : List UInt8}
    (ends : ∀ byte, rest.head? = some byte → isDigit byte = false) :
    readNat (natText number ++ rest) = number := by
  -- The digits end where the numeral ends.
  have stop : rest.takeWhile isDigit = [] := by
    cases rest with
    | nil => rfl
    | cons byte rest => rw [List.takeWhile_cons, ends byte rfl]; rfl
  rw [readNat, List.takeWhile_append_of_pos (natText_isDigit number).2, stop, List.append_nil]
  exact digitsValue_natText number

/-- A digit is no white space and no sign. -/
theorem not_space_of_isDigit {byte : UInt8} (digit : isDigit byte = true) :
    isSpace byte = false ∧ byte ≠ 45 ∧ byte ≠ 43 := by
  -- A digit lies between 48 and 57, and the other bytes do not.
  simp only [isDigit, Bool.and_eq_true, decide_eq_true_eq, UInt8.le_iff_toNat_le] at digit
  have low : 48 ≤ byte.toNat := digit.1
  refine ⟨?_, ?_, ?_⟩
  · simp only [isSpace, Bool.or_eq_false_iff, beq_eq_false_iff_ne, ne_eq, Bool.and_eq_false_iff,
      decide_eq_false_iff_not, UInt8.le_iff_toNat_le]
    refine ⟨fun same => absurd low (by rw [same]; decide), .inr ?_⟩
    show ¬ byte.toNat ≤ 13
    omega
  · exact fun same => absurd low (by rw [same]; decide)
  · exact fun same => absurd low (by rw [same]; decide)

/-- A numeral starts with a digit, which is no white space and no sign. -/
theorem natText_cons (number : Nat) : ∃ byte rest, natText number = byte :: rest ∧
    isSpace byte = false ∧ byte ≠ 45 ∧ byte ≠ 43 := by
  obtain ⟨some_, digits⟩ := natText_isDigit number
  obtain ⟨byte, rest, text⟩ := List.exists_cons_of_ne_nil some_
  exact ⟨byte, rest, text, not_space_of_isDigit (digits byte (by simp [text]))⟩

/-- What has been printed is read back as the same integer. -/
theorem readInt_intText (number : Int) {rest : List UInt8}
    (ends : ∀ byte, rest.head? = some byte → isDigit byte = false) :
    readInt (intText number ++ rest) = number := by
  have digits := readNat_natText number.natAbs ends
  by_cases negative : number < 0
  · -- The sign is no white space, and behind it stands the numeral.
    rw [intText, if_pos negative, readInt, List.cons_append,
      List.dropWhile_cons_of_neg (by decide)]
    simp only [digits]
    omega
  · obtain ⟨byte, more, text, notSpace, notMinus, notPlus⟩ := natText_cons number.natAbs
    rw [text, List.cons_append] at digits
    rw [intText, if_neg negative, text, readInt, List.cons_append,
      List.dropWhile_cons_of_neg (by simp [notSpace])]
    split
    · rename_i same
      exact absurd (List.cons.inj same).1 notMinus
    · rename_i same
      exact absurd (List.cons.inj same).1 notPlus
    · rw [digits]
      omega

end SysProg.Decimal
