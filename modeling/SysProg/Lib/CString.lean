import SysProg.Lib.Strings

/-! Strings of C in blocks of memory, and how they are cut at separators in place. -/

namespace SysProg

/-- The blocks of memory that have been allocated. -/
abbrev Heap := List (List UInt8)

/-- An address in a block. -/
structure Pointer where
  block : Nat
  offset : Nat
  deriving DecidableEq, Repr

/-- The address that is so many bytes further on. -/
def Pointer.advance (ptr : Pointer) (count : Nat) : Pointer :=
  { ptr with offset := ptr.offset + count }

@[simp] theorem Pointer.block_advance (ptr : Pointer) (count : Nat) :
    (ptr.advance count).block = ptr.block :=
  rfl

@[simp] theorem Pointer.offset_advance (ptr : Pointer) (count : Nat) :
    (ptr.advance count).offset = ptr.offset + count :=
  rfl

/-- Further on, and further on again. -/
theorem Pointer.advance_advance (ptr : Pointer) (first second : Nat) :
    (ptr.advance first).advance second = ptr.advance (first + second) := by
  simp [advance, Nat.add_assoc]

namespace Heap

/-- `*ptr`. -/
def byte (heap : Heap) (ptr : Pointer) : UInt8 :=
  (heap.getD ptr.block []).getD ptr.offset 0

/-- `*ptr = byte`. -/
def write (heap : Heap) (ptr : Pointer) (byte : UInt8) : Heap :=
  heap.modify ptr.block (·.set ptr.offset byte)

/-- The string at an address, which is what is before the first null byte. -/
def string (heap : Heap) (ptr : Pointer) : List UInt8 :=
  ((heap.getD ptr.block []).drop ptr.offset).takeWhile (· ≠ 0)

/-- `strchr`. -/
def strchr (heap : Heap) (ptr : Pointer) (char : UInt8) : Option Pointer :=
  (Strings.strchr (heap.string ptr) char).map ptr.advance

/-- `strdup`. -/
def strdup (heap : Heap) (ptr : Pointer) : Heap × Pointer :=
  (heap ++ [heap.string ptr ++ [0]], ⟨heap.length, 0⟩)

/-- `free`, which takes the bytes of the block away. -/
def free (heap : Heap) (ptr : Pointer) : Heap :=
  heap.set ptr.block []

/-- Ends a string where a separator has been found, if one has been found. -/
def terminate (heap : Heap) : Option Pointer → Heap
  | some ptr => heap.write ptr 0
  | none => heap

/-- What writing makes of the block. -/
theorem getElem?_write (heap : Heap) (ptr : Pointer) (byte : UInt8) :
    (heap.write ptr byte)[ptr.block]? = heap[ptr.block]?.map (·.set ptr.offset byte) := by
  rw [write, List.getElem?_modify]
  simp

/-- A string is at an address, with these bytes before it and behind it in its block. -/
structure Laid (heap : Heap) (ptr : Pointer) (before text after : List UInt8) : Prop where
  block : heap[ptr.block]? = some (before ++ text ++ 0 :: after)
  offset : before.length = ptr.offset
  noNull : 0 ∉ text

namespace Laid

variable {heap : Heap} {ptr : Pointer} {before text after : List UInt8}

/-- What is in the block from the address on. -/
theorem drop (laid : Laid heap ptr before text after) :
    (heap.getD ptr.block []).drop ptr.offset = text ++ 0 :: after := by
  rw [List.getD_eq_getElem?_getD, laid.block, Option.getD_some, List.append_assoc, ← laid.offset,
    List.drop_left]

/-- The string is read. -/
theorem string (laid : Laid heap ptr before text after) : heap.string ptr = text := by
  -- There is no null byte in the string, and one behind it.
  have whole : ∀ byte ∈ text, (decide (byte ≠ 0)) = true := by
    intro byte mem
    rw [decide_eq_true_eq]
    rintro rfl
    exact laid.noNull mem
  rw [Heap.string, laid.drop, List.takeWhile_append_of_pos whole]
  simp

/-- A byte of the string, or the null byte behind it. -/
theorem byte {index : Nat} (laid : Laid heap ptr before text after) (inside : index ≤ text.length) :
    heap.byte (ptr.advance index) = text.getD index 0 := by
  have there := congrArg (fun bytes => bytes.getD index 0) laid.drop
  simp only [List.getD_eq_getElem?_getD, List.getElem?_drop] at there
  rw [Heap.byte, Pointer.advance]
  simp only [List.getD_eq_getElem?_getD]
  rw [there]
  rcases inside.lt_or_eq with less | rfl
  · rw [List.getElem?_append_left less]
  · simp

/-- The string behind the null byte. -/
theorem next {rest : List UInt8} (laid : Laid heap ptr before text (rest ++ 0 :: after))
    (noNull : 0 ∉ rest) :
    Laid heap (ptr.advance (text.length + 1)) (before ++ text ++ [0]) rest after where
  -- The next string begins behind the null byte of this one.
  block := by
    rw [Pointer.block_advance, laid.block]
    simp
  offset := by
    rw [Pointer.offset_advance, ← laid.offset]
    simp
  noNull := noNull

/-- A character that is not there is not found. -/
theorem strchr_none {char : UInt8} (laid : Laid heap ptr before text after)
    (absent : char ∉ text) : heap.strchr ptr char = none := by
  rw [strchr, laid.string, Strings.strchr_eq_none.mpr absent]
  rfl

section Cut

variable {front rest : List UInt8} {separator : UInt8}

/-- A separator is found where it is first. -/
theorem strchr_some (laid : Laid heap ptr before (front ++ separator :: rest) after)
    (first : separator ∉ front) :
    heap.strchr ptr separator = some (ptr.advance front.length) := by
  rw [strchr, laid.string, Strings.strchr_append first]
  rfl

/-- Where the separator was, the string ends, and the next one begins behind it. -/
theorem cut (laid : Laid heap ptr before (front ++ separator :: rest) after) :
    Laid (heap.write (ptr.advance front.length) 0) ptr before front (rest ++ 0 :: after) where
  block := by
    -- The byte that is overwritten is the one behind the front.
    have place : ptr.offset + front.length = (before ++ front).length := by
      rw [List.length_append, laid.offset]
    rw [← Pointer.block_advance ptr front.length, getElem?_write, Pointer.block_advance, laid.block,
      Option.map_some, Option.some.injEq, Pointer.offset_advance, place]
    rw [show before ++ (front ++ separator :: rest) ++ 0 :: after =
      (before ++ front) ++ separator :: (rest ++ 0 :: after) by simp,
      List.set_append_right _ _ le_rfl, Nat.sub_self]
    rfl
  offset := laid.offset
  noNull := fun mem => laid.noNull (List.mem_append_left _ mem)

end Cut

/-- What is written before a string leaves it as it is. -/
theorem write_before (laid : Laid heap ptr before text after) {place : Pointer}
    (front : place.offset < ptr.offset) (block : place.block = ptr.block) (byte : UInt8) :
    ∃ before, Laid (heap.write place byte) ptr before text after := by
  -- The place that is written lies before the string, in the same block.
  have inside : place.offset < before.length := laid.offset ▸ front
  refine ⟨before.set place.offset byte, ?_, ?_, laid.noNull⟩
  · rw [← block, getElem?_write, block, laid.block, Option.map_some, List.append_assoc,
      List.set_append_left _ _ inside, List.append_assoc]
  · rw [List.length_set, laid.offset]

end Laid

/-- Writing into one block leaves the others alone. -/
theorem getElem?_write_of_ne {heap : Heap} {ptr : Pointer} {block : Nat}
    (other : block ≠ ptr.block) (byte : UInt8) : (heap.write ptr byte)[block]? = heap[block]? := by
  rw [write, List.getElem?_modify]
  simp [Ne.symm other]

variable {heap : Heap} {ptr : Pointer}

/-- Writing allocates nothing. -/
@[simp] theorem length_write (byte : UInt8) : (heap.write ptr byte).length = heap.length :=
  List.length_modify ..

/-- So it is when a string is ended. -/
@[simp] theorem length_terminate (found : Option Pointer) :
    (heap.terminate found).length = heap.length := by
  cases found with
  | none => rfl
  | some ptr => exact length_write 0

/-- Nothing is allocated, and only one block changes. -/
structure Within (before after : Heap) (block : Nat) : Prop where
  length : after.length = before.length
  others : ∀ other, other ≠ block → after[other]? = before[other]?

/-- Ending a string changes its block only. -/
theorem within_terminate (heap : Heap) {block : Nat} {found : Option Pointer}
    (inside : ∀ ptr ∈ found, ptr.block = block) : Within heap (heap.terminate found) block := by
  refine ⟨length_terminate found, fun other different => ?_⟩
  -- Nothing is written, or a byte of the block.
  cases found with
  | none => rfl
  | some ptr => exact getElem?_write_of_ne (by rwa [inside ptr rfl]) 0

/-- Changes of one block after the other. -/
theorem Within.trans {first second third : Heap} {block : Nat} (one : Within first second block)
    (two : Within second third block) : Within first third block :=
  ⟨two.length.trans one.length,
    fun other different => (two.others other different).trans (one.others other different)⟩

/-- `strchr` stays in the block. -/
theorem block_of_strchr {heap : Heap} {ptr found : Pointer} {char : UInt8}
    (mem : found ∈ heap.strchr ptr char) : found.block = ptr.block := by
  obtain ⟨index, -, rfl⟩ := Option.map_eq_some_iff.mp mem
  rfl

/-- The duplicate of a string is laid in a block of its own. -/
theorem laid_strdup {heap : Heap} {str : Pointer} {before text after : List UInt8}
    (laid : heap.Laid str before text after) :
    (heap.strdup str).1.Laid (heap.strdup str).2 [] text [] where
  -- The copy has a block of its own.
  block := by simp [Heap.strdup, laid.string]
  offset := rfl
  noNull := laid.noNull

/-- When the duplicate has been freed, the memory is as it was. -/
theorem take_free {heap after : Heap} {str : Pointer}
    (within : Within (heap.strdup str).1 after heap.length) :
    (after.free (heap.strdup str).2).take heap.length = heap := by
  -- Everything that has changed is behind.
  refine List.ext_getElem? fun block => ?_
  rw [List.getElem?_take]
  split
  next inside =>
    have other : (heap.strdup str).2.block ≠ block := by
      show heap.length ≠ block
      omega
    rw [Heap.free, List.getElem?_set_ne other, within.others block (by omega), Heap.strdup,
      List.getElem?_append_left inside]
  next outside => exact (List.getElem?_eq_none (not_lt.mp outside)).symm

end Heap

end SysProg
