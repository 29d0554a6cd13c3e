import SysProg.Svsem.ParseOps

/-! The grammar of the semaphore operations, and how a text is read by it. -/

namespace SysProg.Svsem

open SysProg.Decimal SysProg.Strings

/-- A number as it is written. -/
structure Numeral where
  digits : List UInt8
  some_ : digits ≠ []
  isDigit : ∀ byte ∈ digits, Decimal.isDigit byte = true

/-- The number that is written. -/
def Numeral.value (numeral : Numeral) : Nat :=
  digitsValue numeral.digits

/-- What is between a semaphore and a value. -/
inductive Sign where
  | plus
  | minus
  | equals
  deriving DecidableEq, Repr

/-- The character of a sign. -/
def Sign.char : Sign → UInt8
  | .plus => plusSign
  | .minus => minusSign
  | .equals => equalsSign

/-- The sign of a character. -/
def Sign.of (char : UInt8) : Option Sign :=
  if char = plusSign then some .plus
  else if char = minusSign then some .minus
  else if char = equalsSign then some .equals
  else none

/-- The value with its sign. -/
def Sign.apply : Sign → Nat → Int
  | .minus, value => -value
  | _, value => value

/-- A value that a `short` can hold together with its sign. -/
def Sign.Fits : Sign → Nat → Prop
  | .minus, value => value ≤ 2 ^ 15
  | _, value => value < 2 ^ 15

/-- What may follow a value. -/
inductive Flag where
  | nowait
  | undo
  deriving DecidableEq, Repr

/-- `'n'` or `'u'`. -/
def Flag.char : Flag → UInt8
  | .nowait => 110
  | .undo => 117

/-- What a flag stands for. -/
def Flag.value : Flag → Nat
  | .nowait => ipcNowait
  | .undo => semUndo

/-- An operation as it is written. -/
structure Operation where
  semaphore : Numeral
  sign : Sign
  amount : Numeral
  flags : List Flag

namespace Operation

/-- The text of an operation. -/
def text (op : Operation) : List UInt8 :=
  op.semaphore.digits ++ op.sign.char :: (op.amount.digits ++ op.flags.map Flag.char)

/-- Nothing but zero follows `'='`. -/
def ZeroTest (op : Operation) : Prop :=
  op.sign = .equals → op.amount.value = 0

/-- `"u"` does not follow `"=0"`. -/
def NoUndo (op : Operation) : Prop :=
  op.sign = .equals → .undo ∉ op.flags

/-- The numbers can be stored. -/
def Representable (op : Operation) : Prop :=
  op.semaphore.value < 2 ^ 16 ∧ op.sign.Fits op.amount.value

/-- What the operation is in `sops`. -/
def sembuf (op : Operation) : Sembuf where
  semNum := some op.semaphore.value
  semOp := some (op.sign.apply op.amount.value)
  semFlg := some (op.flags.foldl (fun flg flag => flg ||| flag.value) 0)

end Operation

/-- The text of operations that are separated by commas. -/
def opsText (ops : List Operation) : List UInt8 :=
  [comma].intercalate (ops.map Operation.text)

/-- A list of operations as it is documented, with numbers that can be stored. -/
structure Documented (ops : List Operation) : Prop where
  some_ : ops ≠ []
  atMost : ops.length ≤ maxSemops
  zeroTest : ∀ op ∈ ops, op.ZeroTest
  noUndo : ∀ op ∈ ops, op.NoUndo
  representable : ∀ op ∈ ops, op.Representable

/-- The number of a semaphore at the beginning of a text. -/
def writtenNum (text : List UInt8) : Option Nat :=
  if text.takeWhile isDigit = [] then none else some (digitsValue (text.takeWhile isDigit))

/-- The sign and the value behind it. -/
def writtenOp (text : List UInt8) : Option (Sign × Nat) := do
  let _ ← writtenNum text
  let char ← (text.dropWhile isDigit).head?
  let sign ← Sign.of char
  let value ← writtenNum (text.dropWhile isDigit).tail
  return (sign, value)

/-- What has been stored is what is written. -/
def Sembuf.Holds (element : Sembuf) (text : List UInt8) : Prop :=
  element.semNum = writtenNum text ∧
    element.semOp = (writtenOp text).map fun (sign, value) => sign.apply value

/-- The numbers that are written can be stored. -/
def FitsFields (text : List UInt8) : Prop :=
  (∀ number ∈ writtenNum text, number < 2 ^ 16) ∧
    ∀ written ∈ writtenOp text, written.1.Fits written.2

/-- A sign is known from its character. -/
@[simp] theorem Sign.of_char (sign : Sign) : Sign.of sign.char = some sign := by
  cases sign <;> rfl

/-- Only the characters of signs are signs. -/
theorem Sign.of_eq_some {char : UInt8} {sign : Sign} :
    Sign.of char = some sign ↔ char = sign.char := by
  -- The tests are made one after the other.
  constructor
  · intro found
    unfold Sign.of at found
    split at found
    · obtain rfl := Option.some.inj found
      assumption
    · split at found
      · obtain rfl := Option.some.inj found
        assumption
      · split at found
        · obtain rfl := Option.some.inj found
          assumption
        · exact nomatch found
  · rintro rfl
    exact Sign.of_char sign

/-- The test for a sign finds those. -/
theorem Sign.of_eq_none {char : UInt8} :
    Sign.of char = none ↔ char ∉ [plusSign, minusSign, equalsSign] := by
  unfold Sign.of
  simp only [List.mem_cons, List.not_mem_nil, or_false, not_or]
  split_ifs <;> simp_all

/-- There is a number where there is a digit. -/
theorem takeWhile_isDigit_eq_nil {text : List UInt8} :
    text.takeWhile isDigit = [] ↔ text.head?.any isDigit = false := by
  cases text with
  | nil => simp
  | cons first rest => cases digit : isDigit first <;> simp [digit]

/-- There is no number without a digit. -/
theorem writtenNum_eq_none {text : List UInt8} :
    writtenNum text = none ↔ text.takeWhile isDigit = [] := by
  simp [writtenNum]

/-- A number is made of the digits at the beginning. -/
theorem writtenNum_eq_some {text : List UInt8} {number : Nat} :
    writtenNum text = some number ↔
      text.takeWhile isDigit ≠ [] ∧ digitsValue (text.takeWhile isDigit) = number := by
  simp [writtenNum]

/-- An operation has a number, a sign and a value in its text. -/
theorem writtenOp_eq_some {text : List UInt8} {sign : Sign} {value : Nat} :
    writtenOp text = some (sign, value) ↔
      (writtenNum text).isSome ∧ ∃ behind, text.dropWhile isDigit = sign.char :: behind ∧
        writtenNum behind = some value := by
  -- The number, the sign and the value are read in this order.
  simp only [writtenOp, Option.bind_eq_bind, Option.bind_eq_some_iff, List.head?_eq_some_iff,
    Option.isSome_iff_exists]
  constructor
  · rintro ⟨number, num, char, ⟨behind, split⟩, other, found, other_, value_, same⟩
    obtain ⟨rfl, rfl⟩ := Prod.mk.inj (Option.some.inj same)
    obtain rfl := Sign.of_eq_some.mp found
    rw [split] at value_
    exact ⟨⟨number, num⟩, behind, split, value_⟩
  · rintro ⟨⟨number, num⟩, behind, split, value_⟩
    refine ⟨number, num, sign.char, ⟨behind, split⟩, sign, Sign.of_char sign, value, ?_, rfl⟩
    rw [split]
    exact value_

/-- What is behind a number, a sign and a value. -/
def behindOp (text : List UInt8) : List UInt8 :=
  (text.dropWhile isDigit).tail.dropWhile isDigit

/-- A comma ends the digits. -/
theorem digits_append (text rest : List UInt8) :
    (text ++ comma :: rest).takeWhile isDigit = text.takeWhile isDigit ∧
      (text ++ comma :: rest).dropWhile isDigit = text.dropWhile isDigit ++ comma :: rest := by
  -- The induction goes on as long as there are digits.
  have stop : isDigit comma = false := by decide
  induction text with
  | nil => simp [stop]
  | cons byte text ih =>
    cases digit : isDigit byte with
    | false => simp [digit]
    | true => simp [digit, ih]

/-- So does it end a number. -/
theorem writtenNum_append (text rest : List UInt8) :
    writtenNum (text ++ comma :: rest) = writtenNum text := by
  rw [writtenNum, (digits_append text rest).1, writtenNum]

/-- A comma is no sign. -/
theorem writtenOp_append (text rest : List UInt8) :
    writtenOp (text ++ comma :: rest) = writtenOp text := by
  -- If the comma comes where the sign should be, there is none.
  have noSign : Sign.of comma = none := by decide
  simp only [writtenOp, writtenNum_append, (digits_append text rest).2]
  cases text.dropWhile isDigit with
  | nil => simp [noSign]
  | cons char behind => simp [writtenNum_append]

/-- A comma is behind an operation. -/
theorem behindOp_append {text : List UInt8} {written : Sign × Nat}
    (op : writtenOp text = some written) (rest : List UInt8) :
    behindOp (text ++ comma :: rest) = behindOp text ++ comma :: rest := by
  obtain ⟨-, behind, split, -⟩ := writtenOp_eq_some.mp op
  rw [behindOp, (digits_append text rest).2, split, List.cons_append, List.tail_cons,
    (digits_append behind rest).2, behindOp, split, List.tail_cons]

/-- A numeral is read up to the first byte that is no digit. -/
theorem Numeral.digits_append (numeral : Numeral) {rest : List UInt8}
    (ends : rest.head?.any Decimal.isDigit = false) :
    (numeral.digits ++ rest).takeWhile Decimal.isDigit = numeral.digits ∧
      (numeral.digits ++ rest).dropWhile Decimal.isDigit = rest := by
  -- All bytes of the numeral are digits, and the next one is not.
  have stop := takeWhile_isDigit_eq_nil.mpr ends
  have split := List.takeWhile_append_dropWhile (p := Decimal.isDigit) (l := rest)
  rw [stop, List.nil_append] at split
  rw [List.takeWhile_append_of_pos numeral.isDigit, List.dropWhile_append_of_pos numeral.isDigit,
    stop, split, List.append_nil]
  exact ⟨rfl, rfl⟩

/-- A sign is no digit. -/
theorem Sign.not_isDigit (sign : Sign) : isDigit sign.char = false := by
  cases sign <;> decide

/-- A flag is no digit. -/
theorem Flag.not_isDigit (flags : List Flag) :
    (flags.map Flag.char).head?.any isDigit = false := by
  cases flags with
  | nil => rfl
  | cons flag flags => cases flag <;> rfl

/-- The digits of a semaphore, and what is behind them. -/
theorem Operation.digits_text (op : Operation) :
    op.text.takeWhile isDigit = op.semaphore.digits ∧
      op.text.dropWhile isDigit =
        op.sign.char :: (op.amount.digits ++ op.flags.map Flag.char) :=
  op.semaphore.digits_append (by simp [op.sign.not_isDigit])

/-- The number of the semaphore of an operation. -/
theorem writtenNum_text (op : Operation) : writtenNum op.text = some op.semaphore.value := by
  rw [writtenNum_eq_some, op.digits_text.1]
  exact ⟨op.semaphore.some_, rfl⟩

/-- The sign and the value of an operation. -/
theorem writtenOp_text (op : Operation) :
    writtenOp op.text = some (op.sign, op.amount.value) := by
  -- The digits of the amount end where the flags begin.
  rw [writtenOp_eq_some, writtenNum_text]
  refine ⟨rfl, _, op.digits_text.2, ?_⟩
  rw [writtenNum_eq_some, (op.amount.digits_append (Flag.not_isDigit op.flags)).1]
  exact ⟨op.amount.some_, rfl⟩

/-- The flags of an operation. -/
theorem behindOp_text (op : Operation) : behindOp op.text = op.flags.map Flag.char := by
  rw [behindOp, op.digits_text.2, List.tail_cons]
  exact (op.amount.digits_append (Flag.not_isDigit op.flags)).2

/-- The numbers of a text fit its operation. -/
theorem fits_text {op : Operation} : FitsFields op.text ↔ op.Representable := by
  rw [FitsFields, writtenNum_text, writtenOp_text]
  simp [Operation.Representable]

/-- The text of an operation, with nothing but zero behind `'='`. -/
def WellFormed (text : List UInt8) : Prop :=
  ∃ op : Operation, op.text = text ∧ op.ZeroTest

/-- A numeral is known from its digits. -/
theorem Numeral.ext_digits {numeral other : Numeral} (same : numeral.digits = other.digits) :
    numeral = other := by
  -- A numeral is its digits.
  obtain ⟨digits, some_, isDigit_⟩ := numeral
  obtain ⟨digits', some_', isDigit_'⟩ := other
  obtain rfl : digits = digits' := same
  rfl

/-- Flags are known from their characters. -/
theorem Flag.map_char_injective : Function.Injective (List.map Flag.char) := by
  refine List.map_injective_iff.mpr fun flag other same => ?_
  cases flag <;> cases other <;> first | rfl | exact absurd same (by decide)

/-- An operation is known from its text. -/
theorem Operation.text_injective : Function.Injective Operation.text := by
  -- The parts of the text are read off it one after the other.
  intro op other same
  obtain ⟨digits, behind⟩ := op.digits_text
  obtain ⟨digits', behind'⟩ := other.digits_text
  rw [same, digits'] at digits
  rw [same, behind', List.cons.injEq] at behind
  obtain ⟨sign, rest⟩ := behind
  obtain ⟨amount, flags⟩ := op.amount.digits_append (Flag.not_isDigit op.flags)
  obtain ⟨amount', flags'⟩ := other.amount.digits_append (Flag.not_isDigit other.flags)
  rw [← rest, amount'] at amount
  rw [← rest, flags'] at flags
  have signs : other.sign = op.sign := by
    have found := congrArg Sign.of sign
    rwa [Sign.of_char, Sign.of_char, Option.some.injEq] at found
  obtain ⟨semaphore, sign_, amount_, flags_⟩ := op
  obtain ⟨semaphore', sign_', amount_', flags_'⟩ := other
  obtain rfl := Numeral.ext_digits digits
  obtain rfl := Numeral.ext_digits amount
  obtain rfl := Flag.map_char_injective flags
  obtain rfl : sign_' = sign_ := signs
  rfl

/-- There is no comma in the text of an operation. -/
theorem Operation.comma_notMem (op : Operation) : comma ∉ op.text := by
  -- The text consists of digits, a sign, digits and flags.
  have noDigit : isDigit comma = false := by decide
  have numeral : ∀ numeral : Numeral, comma ∉ numeral.digits := fun numeral mem => by
    rw [numeral.isDigit comma mem] at noDigit
    exact nomatch noDigit
  have sign : comma ≠ op.sign.char := by cases op.sign <;> decide
  have flags : comma ∉ op.flags.map Flag.char := by
    rw [List.mem_map]
    rintro ⟨flag, -, same⟩
    cases flag <;> exact absurd same (by decide)
  rw [text, List.mem_append, List.mem_cons, List.mem_append]
  exact fun mem => mem.elim (numeral _) fun mem => mem.elim sign fun mem =>
    mem.elim (numeral _) flags

/-- The operations of a text are those between its commas. -/
theorem opsText_eq_iff {ops : List Operation} (some_ : ops ≠ []) {arg : List UInt8} :
    opsText ops = arg ↔ arg.splitOn comma = ops.map Operation.text :=
  intercalate_map_eq_iff some_ fun op _ => op.comma_notMem

end SysProg.Svsem
