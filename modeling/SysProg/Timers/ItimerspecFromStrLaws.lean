import SysProg.Timers.ItimerspecFromStr

/-! When the times that have been printed are read back. -/

namespace SysProg.Timers

open SysProg.Decimal SysProg.Strtol

/-- Seconds of a 64-bit `time_t`, and nanoseconds if they are printed. -/
structure Half where
  sec : Nat
  nsec : Option Nat
  secFits : sec < 2 ^ 63
  nsecFits : ∀ number ∈ nsec, number ≤ 999999999

/-- `"sec[/nsec]"`. -/
def Half.text (half : Half) : List UInt8 :=
  natText half.sec ++
    match half.nsec with
    | none => []
    | some nsec => slash :: natText nsec

/-- The fields, with 0 for what is omitted. -/
def Half.timespec (half : Half) : Timespec where
  tvSec := half.sec
  tvNsec := half.nsec.getD 0

/-- A value, and an interval if it is printed. -/
structure Times where
  value : Half
  interval : Option Half

/-- `"value.sec[/value.nsec][:interval.sec[/interval.nsec]]"`. -/
def Times.text (times : Times) : List UInt8 :=
  times.value.text ++
    match times.interval with
    | none => []
    | some interval => colon :: interval.text

/-- The fields, with 0 for what is omitted. -/
def Times.itimerspec (times : Times) : Itimerspec where
  itValue := times.value.timespec
  itInterval :=
    match times.interval with
    | none => ⟨0, 0⟩
    | some interval => interval.timespec

/-- Parsing undoes printing, and the argument is not modified. -/
structure Undoes (heap : Heap) (str : Pointer) (times : Times) : Prop where
  fields : (itimerspecFromStr heap str).2 = times.itimerspec
  /-- The memory that was there before is as it was. -/
  unmodified : (itimerspecFromStr heap str).1.take heap.length = heap

/-- The seconds are `int`s. -/
def Times.Small (times : Times) : Prop :=
  times.value.sec < 2 ^ 31 ∧ ∀ interval ∈ times.interval, interval.sec < 2 ^ 31

/-- What is read of a half, whether the seconds are too large or not. -/
def Half.read (half : Half) : Timespec where
  tvSec := atoi (natText half.sec)
  tvNsec := half.nsec.getD 0

/-- There are only digits in a numeral. -/
theorem notMem_natText (byte : UInt8) (other : isDigit byte = false) (number : Nat) :
    byte ∉ natText number := by
  intro mem
  rw [(natText_isDigit number).2 byte mem] at other
  exact nomatch other

/-- A half consists of digits and slashes. -/
theorem Half.notMem_text (half : Half) (byte : UInt8) (other : isDigit byte = false)
    (noSlash : byte ≠ slash) : byte ∉ half.text := by
  unfold text
  -- The text has digits, and a slash before the nanoseconds.
  cases half.nsec with
  | none => simpa using notMem_natText byte other half.sec
  | some nsec =>
    simp [notMem_natText byte other half.sec, notMem_natText byte other nsec, noSlash]

/-- No null byte is printed. -/
theorem Times.noNull (times : Times) : 0 ∉ times.text := by
  have half : ∀ half : Half, 0 ∉ half.text := fun half =>
    half.notMem_text 0 (by decide) (by decide)
  unfold text
  -- The two halves and the colon between them.
  cases times.interval with
  | none => simpa using half times.value
  | some interval => simp [half times.value, half interval, colon]

/-- Reading one half changes the block of its string only. -/
theorem within_timespecFromStr (heap : Heap) (str : Pointer) :
    Heap.Within heap (timespecFromStr heap str).1 str.block :=
  Heap.within_terminate heap fun _ mem => Heap.block_of_strchr mem

section Half

variable {heap : Heap} {str : Pointer} {before after : List UInt8} {half : Half}

/-- A half is read at its numerals. -/
theorem timespecFromStr_text (laid : heap.Laid str before half.text after) :
    (timespecFromStr heap str).2 = half.read := by
  have noSlash := notMem_natText slash (by decide)
  obtain ⟨sec, nsec, secFits, nsecFits⟩ := half
  cases nsec with
  | none =>
    have text : Half.text ⟨sec, none, secFits, nsecFits⟩ = natText sec := List.append_nil _
    rw [text] at laid
    simp only [timespecFromStr, laid.strchr_none (noSlash sec), Heap.terminate, laid.string]
    rfl
  | some nsec =>
    -- The nanoseconds are behind the slash, and small enough.
    have cut := laid.cut
    have behind := cut.next fun mem => notMem_natText 0 (by decide) nsec mem
    have small : nsec ≤ 999999999 := nsecFits nsec rfl
    have nanoseconds : atoi (natText nsec) = nsec :=
      (atoi_natText_iff (by omega)).mpr (by omega)
    simp only [timespecFromStr, laid.strchr_some (noSlash sec), Heap.terminate, cut.string]
    rw [show (str.advance (natText sec).length).advance 1 =
      str.advance ((natText sec).length + 1) from rfl, behind.string, nanoseconds]
    rfl

/-- The string behind a half is still there when the half has been read. -/
theorem laid_timespecFromStr {rest : List UInt8}
    (laid : heap.Laid str before half.text (rest ++ 0 :: after)) (noNull : 0 ∉ rest) :
    ∃ before', (timespecFromStr heap str).1.Laid (str.advance (half.text.length + 1)) before'
      rest after := by
  have noSlash := notMem_natText slash (by decide)
  obtain ⟨sec, nsec, secFits, nsecFits⟩ := half
  cases nsec with
  | none =>
    have text : Half.text ⟨sec, none, secFits, nsecFits⟩ = natText sec := List.append_nil _
    rw [text] at laid ⊢
    simp only [timespecFromStr, laid.strchr_none (noSlash sec), Heap.terminate]
    exact ⟨_, laid.next noNull⟩
  | some nsec =>
    -- The nanoseconds are a string of their own before it.
    have behind := laid.cut.next fun mem => notMem_natText 0 (by decide) nsec mem
    have next := behind.next noNull
    simp only [timespecFromStr, laid.strchr_some (noSlash sec), Heap.terminate]
    have length : (natText sec).length + 1 + ((natText nsec).length + 1) =
        (Half.text ⟨sec, some nsec, secFits, nsecFits⟩).length + 1 := by
      simp [Half.text, Nat.add_assoc]
      omega
    rw [Pointer.advance_advance, length] at next
    exact ⟨_, next⟩

end Half

/-- All that is written is written into the duplicate. -/
theorem itimerspecFromStr_unmodified (heap : Heap) (str : Pointer) :
    (itimerspecFromStr heap str).1.take heap.length = heap := by
  -- All that is written is in the block of the copy.
  have cut : Heap.Within (heap.strdup str).1
      ((heap.strdup str).1.terminate ((heap.strdup str).1.strchr (heap.strdup str).2 colon))
      heap.length := Heap.within_terminate _ fun _ mem => Heap.block_of_strchr mem
  have value := cut.trans (within_timespecFromStr _ (heap.strdup str).2)
  unfold itimerspecFromStr
  cases found : (heap.strdup str).1.strchr (heap.strdup str).2 colon with
  | none =>
    rw [found] at value
    simp only [found]
    exact Heap.take_free value
  | some cptr =>
    rw [found] at value
    have interval := within_timespecFromStr (timespecFromStr
      ((heap.strdup str).1.terminate (some cptr)) (heap.strdup str).2).1 (cptr.advance 1)
    rw [Pointer.block_advance, Heap.block_of_strchr found] at interval
    simp only [found]
    exact Heap.take_free (value.trans interval)

/-- What is read of times, whether their seconds are too large or not. -/
def Times.read (times : Times) : Itimerspec where
  itValue := times.value.read
  itInterval :=
    match times.interval with
    | none => ⟨0, 0⟩
    | some interval => interval.read

/-- Times are read at their numerals. -/
theorem itimerspecFromStr_text {heap : Heap} {str : Pointer} {times : Times}
    {before after : List UInt8} (laid : heap.Laid str before times.text after) :
    (itimerspecFromStr heap str).2 = times.read := by
  have dup := Heap.laid_strdup laid
  obtain ⟨value, interval⟩ := times
  have noColon := value.notMem_text colon (by decide) (by decide)
  cases interval with
  | none =>
    -- There is no colon, so that the whole string is the value.
    have text : Times.text ⟨value, none⟩ = value.text := List.append_nil _
    rw [text] at dup
    simp only [itimerspecFromStr, dup.strchr_none noColon, Heap.terminate,
      timespecFromStr_text dup]
    rfl
  | some interval =>
    -- The value ends at the colon, and the interval is behind it.
    have cut := dup.cut
    have noNull := interval.notMem_text 0 (by decide) (by decide)
    obtain ⟨before', behind⟩ := laid_timespecFromStr cut noNull
    have place : ((heap.strdup str).2.advance value.text.length).advance 1 =
        (heap.strdup str).2.advance (value.text.length + 1) := rfl
    simp only [itimerspecFromStr, dup.strchr_some noColon, Heap.terminate, place,
      timespecFromStr_text cut, timespecFromStr_text behind]
    rfl

/-- A half is read as it is if and only if its seconds are an `int`. -/
theorem Half.read_eq_iff (half : Half) : half.read = half.timespec ↔ half.sec < 2 ^ 31 := by
  rw [read, timespec, Timespec.mk.injEq, atoi_natText_iff half.secFits]
  exact and_iff_left rfl

/-- Times are read as they are if and only if their seconds are `int`s. -/
theorem Times.read_eq_iff (times : Times) : times.read = times.itimerspec ↔ times.Small := by
  obtain ⟨value, interval⟩ := times
  rw [read, itimerspec, Itimerspec.mk.injEq, Small, value.read_eq_iff]
  -- Each half is read as written exactly if it is small.
  cases interval with
  | none => exact and_congr_right fun _ => ⟨fun _ => nofun, fun _ => rfl⟩
  | some interval =>
    simp only [interval.read_eq_iff, Option.mem_some_iff, forall_eq']

/-- Printed times are read back if and only if their seconds are `int`s. -/
theorem itimerspecFromStr_undoes_iff {heap : Heap} {str : Pointer} {times : Times}
    {before after : List UInt8} (laid : heap.Laid str before times.text after) :
    Undoes heap str times ↔ times.Small := by
  rw [← times.read_eq_iff, ← itimerspecFromStr_text laid]
  exact ⟨fun undoes => undoes.fields,
    fun fields => ⟨fields, itimerspecFromStr_unmodified heap str⟩⟩

/-- `"1/5"`. -/
def small : Times :=
  ⟨⟨1, some 5, by norm_num, by simp⟩, none⟩

/-- The theorem, for this string. -/
theorem itimerspecFromStr_undoes_iff_small :
    Undoes [small.text ++ [0]] ⟨0, 0⟩ small ↔ small.Small :=
  have laid : Heap.Laid [small.text ++ [0]] ⟨0, 0⟩ [] small.text [] :=
    ⟨by simp, rfl, small.noNull⟩
  itimerspecFromStr_undoes_iff laid

/-- `"2147483648"`. -/
def large : Times :=
  ⟨⟨2 ^ 31, none, by norm_num, nofun⟩, none⟩

/-- The first number of seconds that is too large is not read back. -/
theorem itimerspecFromStr_not_undoes :
    ¬ ∀ (heap : Heap) (str : Pointer) (times : Times) (before after : List UInt8),
      heap.Laid str before times.text after → Undoes heap str times := by
  intro promised
  -- The seconds do not fit in an int.
  have laid : Heap.Laid [large.text ++ [0]] ⟨0, 0⟩ [] large.text [] :=
    ⟨by simp, rfl, large.noNull⟩
  have fields := (promised _ _ _ _ _ laid).fields
  rw [itimerspecFromStr_text laid, large.read_eq_iff] at fields
  exact absurd fields.1 (by decide)

end SysProg.Timers
