import Mathlib.Tactic

/-! Memory as bytes at addresses, and words of 32 bits in little-endian order. -/

namespace SysProg

/-- A byte at each address. -/
abbrev Memory := Nat → UInt8

namespace Memory

/-- The bytes are in memory from an address on. -/
def Holds (mem : Memory) (start : Nat) (bytes : List UInt8) : Prop :=
  ∀ index, (inside : index < bytes.length) → mem (start + index) = bytes[index]

/-- Reads as many bytes from an address on. -/
def load (mem : Memory) (start count : Nat) : List UInt8 :=
  (List.range count).map fun index => mem (start + index)

/-- Writes bytes from an address on. -/
def store (mem : Memory) (start : Nat) (bytes : List UInt8) : Memory := fun address =>
  if start ≤ address then bytes[address - start]?.getD (mem address) else mem address

/-- Moves bytes down to the beginning of the memory, one after the other. -/
def moveDown (mem : Memory) (start count : Nat) : Memory :=
  (List.range count).foldl (fun mem index => Function.update mem index (mem (start + index))) mem

/-- The bytes of a word, the least significant one first. -/
def bytesOf (word : UInt32) : List UInt8 :=
  [UInt8.ofNat word.toNat, UInt8.ofNat (word.toNat / 0x100), UInt8.ofNat (word.toNat / 0x10000),
    UInt8.ofNat (word.toNat / 0x1000000)]

/-- Reads a word from an address. -/
def word (mem : Memory) (start : Nat) : UInt32 :=
  UInt32.ofNat ((mem start).toNat + 0x100 * (mem (start + 1)).toNat +
    0x10000 * (mem (start + 2)).toNat + 0x1000000 * (mem (start + 3)).toNat)

/-- The bytes of a double word, the least significant one first. -/
def bytesOfLong (value : UInt64) : List UInt8 :=
  bytesOf (UInt32.ofNat value.toNat) ++ bytesOf (UInt32.ofNat (value.toNat / 0x100000000))

/-- Reads a double word from an address. -/
def long (mem : Memory) (start : Nat) : UInt64 :=
  UInt64.ofNat ((mem.word start).toNat + 0x100000000 * (mem.word (start + 4)).toNat)

/-- A word has four bytes. -/
@[simp] theorem length_bytesOf (word : UInt32) : (bytesOf word).length = 4 :=
  rfl

/-- A double word has eight bytes. -/
@[simp] theorem length_bytesOfLong (value : UInt64) : (bytesOfLong value).length = 8 :=
  rfl

/-- Bytes are in memory when their parts are. -/
theorem holds_append {mem : Memory} {start : Nat} {first second : List UInt8} :
    mem.Holds start (first ++ second) ↔
      mem.Holds start first ∧ mem.Holds (start + first.length) second := by
  -- The second part is held behind the first one.
  constructor
  · intro holds
    refine ⟨fun index inside => ?_, fun index inside => ?_⟩
    · have there := holds index (by rw [List.length_append]; omega)
      rwa [List.getElem_append_left inside] at there
    · have there := holds (first.length + index) (by rw [List.length_append]; omega)
      rw [List.getElem_append_right (Nat.le_add_right _ _)] at there
      simpa [Nat.add_assoc] using there
  · rintro ⟨left, right⟩ index inside
    -- An index is one of the first part or one of the second.
    by_cases before : index < first.length
    · rw [List.getElem_append_left before]
      exact left index before
    · rw [List.length_append] at inside
      rw [List.getElem_append_right (not_lt.mp before)]
      have there := right (index - first.length) (by omega)
      rwa [show start + first.length + (index - first.length) = start + index by omega] at there

/-- What is in memory is read. -/
theorem load_of_holds {mem : Memory} {start : Nat} {bytes : List UInt8}
    (holds : mem.Holds start bytes) : mem.load start bytes.length = bytes := by
  refine List.ext_getElem (by simp [load]) fun index _ inside => ?_
  simpa [load] using holds index inside

/-- As many bytes are read as are asked for. -/
@[simp] theorem length_load (mem : Memory) (start count : Nat) :
    (mem.load start count).length = count := by
  rw [load, List.length_map, List.length_range]

/-- Reading on from where a part ends is reading the whole. -/
theorem load_add (mem : Memory) (start front back : Nat) :
    mem.load start (front + back) = mem.load start front ++ mem.load (start + front) back := by
  unfold load
  rw [List.range_add, List.map_append, List.map_map]
  simp [Function.comp_def, Nat.add_assoc]

/-- A word whose bytes are in memory is read. -/
theorem word_of_holds {mem : Memory} {start : Nat} {value : UInt32}
    (holds : mem.Holds start (bytesOf value)) : mem.word start = value := by
  -- The four bytes of the word, the lowest one first.
  have first := holds 0 (by simp)
  have second := holds 1 (by simp)
  have third := holds 2 (by simp)
  have fourth := holds 3 (by simp)
  simp only [bytesOf, Nat.add_zero, List.getElem_cons_zero, List.getElem_cons_succ] at *
  rw [word, first, second, third, fourth, ← UInt32.toNat_inj]
  have small := value.toNat_lt
  simp only [UInt8.toNat_ofNat', UInt32.toNat_ofNat']
  omega

/-- A double word whose bytes are in memory is read. -/
theorem long_of_holds {mem : Memory} {start : Nat} {value : UInt64}
    (holds : mem.Holds start (bytesOfLong value)) : mem.long start = value := by
  -- Each half is a word of its own, and together they make up the whole.
  obtain ⟨lower, upper⟩ := holds_append.mp holds
  have upper := word_of_holds upper
  rw [length_bytesOf] at upper
  rw [long, word_of_holds lower, upper, ← UInt64.toNat_inj]
  have small := value.toNat_lt
  simp only [UInt32.toNat_ofNat', UInt64.toNat_ofNat']
  omega

/-- What is written is in memory. -/
theorem holds_store (mem : Memory) (start : Nat) (bytes : List UInt8) :
    (mem.store start bytes).Holds start bytes := by
  intro index inside
  simp [store, inside]

/-- Writing nothing changes nothing. -/
theorem store_nil (mem : Memory) (start : Nat) : mem.store start [] = mem := by
  funext address
  simp [store]

/-- Writing on from where a part ends is writing the whole. -/
theorem store_append (mem : Memory) (start : Nat) (front back : List UInt8) :
    (mem.store start front).store (start + front.length) back =
      mem.store start (front ++ back) := by
  funext address
  unfold store
  -- The address is before the second part, in it, or before both.
  by_cases second : start + front.length ≤ address
  · have past : front[address - start]? = none := List.getElem?_eq_none (by omega)
    have offset : address - (start + front.length) = address - start - front.length := by omega
    rw [if_pos second, if_pos (by omega), if_pos (by omega),
      List.getElem?_append_right (by omega), past, offset, Option.getD_none]
  · rw [if_neg second]
    by_cases first : start ≤ address
    · rw [if_pos first, if_pos first, List.getElem?_append_left (by omega)]
    · rw [if_neg first, if_neg first]

/-- What is written is read. -/
theorem load_store (mem : Memory) (start : Nat) (bytes : List UInt8) :
    (mem.store start bytes).load start bytes.length = bytes :=
  load_of_holds (holds_store mem start bytes)

/-- Writing changes nothing before the address. -/
theorem holds_store_before {mem : Memory} {start address : Nat} {bytes other : List UInt8}
    (holds : mem.Holds start bytes) (before : start + bytes.length ≤ address) :
    (mem.store address other).Holds start bytes := by
  -- What is stored lies behind these bytes.
  intro index inside
  rw [store, if_neg (by omega)]
  exact holds index inside

/-- Moving bytes down reads every byte before it is overwritten. -/
theorem moveDown_eq (mem : Memory) (start count : Nat) :
    mem.moveDown start count =
      fun address => if address < count then mem (start + address) else mem address := by
  -- By induction on the count; each byte is read before its place is written.
  induction count with
  | zero => rfl
  | succ count ih =>
    rw [moveDown, List.range_succ, List.foldl_append, ← moveDown, ih]
    funext address
    simp only [List.foldl_cons, List.foldl_nil, Function.update_apply]
    rw [if_neg (by omega : ¬ start + count < count)]
    -- The last byte, the ones before it, and what is not moved.
    by_cases last : address = count
    · rw [if_pos last, if_pos (by omega), last]
    · rw [if_neg last]
      by_cases before : address < count
      · rw [if_pos before, if_pos (by omega)]
      · rw [if_neg before, if_neg (by omega)]

/-- Bytes that are moved down are at the beginning of the memory. -/
theorem holds_moveDown {mem : Memory} {start count : Nat} {bytes : List UInt8}
    (holds : mem.Holds start bytes) (enough : bytes.length ≤ count) :
    (mem.moveDown start count).Holds 0 bytes := by
  -- The bytes are among those that are moved.
  intro index inside
  simp only [moveDown_eq, Nat.zero_add]
  rw [if_pos (by omega)]
  exact holds index inside

end Memory

end SysProg
