import SysProg.UsersGroups.UgidFunctions

/-! Which numeric strings are turned into the IDs that they denote. -/

namespace SysProg.UsersGroups

open SysProg.Strtol

/-- The number of a user or a group. -/
def ValidId (number : Int) : Prop :=
  0 ≤ number ∧ number < 2 ^ 32 - 1

instance (number : Int) : Decidable (ValidId number) :=
  inferInstanceAs (Decidable (_ ∧ _))

/-- The number itself where it is valid, and the error value otherwise. -/
def Denotes (id : Id) (number : Int) : Prop :=
  if ValidId number then (id.toNat : Int) = number else id = errorId

/-- A number that is valid, too large for a `long`, or cut down to the error value. -/
def Harmless (number : Int) : Prop :=
  ValidId number ∨ longMax ≤ number ∨ longMin < number ∧ number % 2 ^ 32 = 2 ^ 32 - 1

/-- What the lower half of a `long` is as an ID. -/
theorem toNat_ofInt (number : Int) : ((UInt32.ofInt number).toNat : Int) = number % 2 ^ 32 := by
  rw [UInt32.ofInt, UInt32.toNat_ofNat']
  omega

/-- The error value is the largest one. -/
theorem eq_errorId_iff (id : Id) : id = errorId ↔ (id.toNat : Int) = 2 ^ 32 - 1 := by
  rw [← UInt32.toNat_inj]
  show id.toNat = 4294967295 ↔ _
  omega

/-- A numeral is not looked up in the database. -/
theorem idFromName_text (lookup : Database) (numeral : Numeral) :
    idFromName lookup (some numeral.text) = UInt32.ofInt (clamp numeral.value) := by
  -- There is at least one digit, so that the string is not empty.
  obtain ⟨first, rest, same⟩ : ∃ first rest, numeral.text = first :: rest :=
    List.exists_cons_of_ne_nil (List.append_ne_nil_of_right_ne_nil _ numeral.some_)
  have read := strtol_text numeral
  rw [same] at read ⊢
  simp only [idFromName, read, if_true]

/-- The lower half of the nearest `long` is right for harmless numbers, and for no others. -/
theorem denotes_ofInt_iff (number : Int) :
    Denotes (UInt32.ofInt (clamp number)) number ↔ Harmless number := by
  rw [Denotes, eq_errorId_iff, toNat_ofInt, Harmless]
  split
  next valid =>
    -- A valid number is not changed on the way.
    have fits : clamp number = number := by
      refine clamp_eq_self ?_ ?_
      · have := valid.1
        unfold longMin
        omega
      · have := valid.2
        unfold longMax
        omega
    rw [fits, Int.emod_eq_of_lt valid.1 (by have := valid.2; omega)]
    exact ⟨fun _ => .inl valid, fun _ => rfl⟩
  next invalid =>
    rw [or_iff_right invalid]
    by_cases high : longMax ≤ number
    -- `LONG_MAX` is cut down to the error value.
    · have cut : clamp number = longMax := by
        rw [clamp, min_eq_right high]
        decide
      rw [cut]
      exact ⟨fun _ => .inl high, fun _ => by decide⟩
    · rw [or_iff_right high]
      by_cases low : longMin < number
      · rw [clamp_eq_self low.le (not_le.mp high).le]
        exact ⟨fun same => ⟨low, same⟩, fun both => both.2⟩
      -- `LONG_MIN` is cut down to zero.
      · have cut : clamp number = longMin := by
          rw [clamp, min_eq_left (not_le.mp high).le, max_eq_left (not_lt.mp low)]
        rw [cut]
        exact ⟨fun same => absurd same (by decide), fun both => absurd both.1 low⟩

/-- A numeric string is turned into the ID that it denotes if and only if it is harmless. -/
theorem idFromName_denotes_iff (getpwnam getgrnam : Database) (numeral : Numeral) :
    (Denotes (userIdFromName getpwnam (some numeral.text)) numeral.value ↔
        Harmless numeral.value) ∧
      (Denotes (groupIdFromName getgrnam (some numeral.text)) numeral.value ↔
        Harmless numeral.value) := by
  rw [userIdFromName, groupIdFromName, idFromName_text, idFromName_text]
  exact ⟨denotes_ofInt_iff numeral.value, denotes_ofInt_iff numeral.value⟩

/-- The smallest number that is beyond the IDs. -/
def beyond : Numeral := Numeral.ofNat (2 ^ 32)

/-- It is taken for the ID of the superuser. -/
theorem idFromName_not_denotes :
    ¬ ∀ (getpwnam getgrnam : Database) (numeral : Numeral),
      Denotes (userIdFromName getpwnam (some numeral.text)) numeral.value ∧
        Denotes (groupIdFromName getgrnam (some numeral.text)) numeral.value := by
  intro promised
  -- The number is cut to 32 bits, and becomes the identifier of root.
  have root := (promised (fun _ => none) (fun _ => none) beyond).1
  rw [userIdFromName, idFromName_text, denotes_ofInt_iff, beyond, Numeral.value_ofNat] at root
  exact absurd root (by unfold Harmless ValidId longMax longMin; norm_num)

end SysProg.UsersGroups
