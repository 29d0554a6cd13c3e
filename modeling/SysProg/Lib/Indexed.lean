import Mathlib.Tactic

/-! Elements under signed indices, and what changes of place leave as it was. -/

namespace SysProg

namespace Indexed

variable {α : Type*}

/-- The element under an index, which has no meaning out of bounds. -/
def get (elements : List α) (index : Int) : Option α :=
  if index < 0 then none else elements[index.toNat]?

/-- The elements after an assignment to one of them. -/
def put (elements : List α) (index : Int) (value : α) : Option (List α) :=
  if 0 ≤ index ∧ index < elements.length then some (elements.set index.toNat value) else none

/-- The elements after two of them have changed places. -/
def swap (elements : List α) (first second : Int) : Option (List α) := do
  let one ← get elements first
  let two ← get elements second
  let placed ← put elements first two
  put placed second one

variable {elements : List α} {index : Nat}

/-- A number that is not negative is an index like any other. -/
@[simp] theorem get_natCast : get elements (index : Int) = elements[index]? := by
  simp [get]

/-- An assignment within the bounds replaces the element. -/
theorem put_natCast (within : index < elements.length) (value : α) :
    put elements (index : Int) value = some (elements.set index value) := by
  simp [put, within]

/-- All elements under indices in a range are like this. -/
def Within (elements : List α) (low high : Int) (holds : α → Prop) : Prop :=
  ∀ (index : Nat) value, low ≤ index → index ≤ high → elements[index]? = some value → holds value

/-- Some elements in a range have changed places, and all the others are where they were. -/
structure Rearranged (low high : Int) (before after : List α) : Prop where
  perm : after.Perm before
  outside : ∀ index : Nat, ¬ (low ≤ index ∧ index ≤ high) → after[index]? = before[index]?
  inside : ∀ holds, Within before low high holds → Within after low high holds

variable {low high : Int} {before middle after : List α}

/-- Everything may be where it was. -/
theorem Rearranged.refl (low high : Int) (elements : List α) :
    Rearranged low high elements elements :=
  ⟨.refl _, fun _ _ => rfl, fun _ => id⟩

/-- One change of places after another is such a change, too. -/
theorem Rearranged.trans (first : Rearranged low high before middle)
    (second : Rearranged low high middle after) : Rearranged low high before after :=
  ⟨second.perm.trans first.perm,
    fun index out => (second.outside index out).trans (first.outside index out),
    fun holds all => second.inside holds (first.inside holds all)⟩

/-- Changes in a range are changes in any larger range. -/
theorem Rearranged.widen {low_ high_ : Int} (moved : Rearranged low high before after)
    (left : low_ ≤ low) (right : high ≤ high_) : Rearranged low_ high_ before after where
  perm := moved.perm
  outside index out := moved.outside index (by omega)
  inside := by
    intro holds all index value above below there
    -- Within the old bounds by assumption, and outside of them nothing has moved.
    by_cases inner : low ≤ index ∧ index ≤ high
    · refine moved.inside holds ?_ index value inner.1 inner.2 there
      intro index_ value_ above_ below_ there_
      exact all index_ value_ (by omega) (by omega) there_
    · exact all index value above below (moved.outside index inner ▸ there)

/-- What is true in a larger range is true in this one. -/
theorem Within.narrow {low_ high_ : Int} {holds : α → Prop} (all : Within elements low_ high_ holds)
    (left : low_ ≤ low) (right : high ≤ high_) : Within elements low high holds :=
  fun index value above below there => all index value (by omega) (by omega) there

/-- What two elements are after they have changed places. -/
theorem getElem?_swapped {first second : Nat} (one : first < elements.length)
    (two : second < elements.length) (index : Nat) :
    ((elements.set first elements[second]).set second elements[first])[index]? =
      elements[Equiv.swap first second index]? := by
  rw [Equiv.swap_apply_def]
  -- The second place, the first place, and any other one.
  by_cases here : index = second
  · subst here
    by_cases same : index = first
    · subst same
      simp [one]
    · rw [if_neg same, if_pos rfl, List.getElem?_set_self (by simpa using two),
        List.getElem?_eq_getElem one]
  · rw [List.getElem?_set_ne (Ne.symm here)]
    by_cases there : index = first
    · subst there
      rw [if_pos rfl, List.getElem?_set_self one, List.getElem?_eq_getElem two]
    · rw [if_neg there, if_neg here, List.getElem?_set_ne (Ne.symm there)]

/-- Two elements in a range can change places. -/
theorem exists_swap (elements : List α) (first second : Nat) (one : first < elements.length)
    (two : second < elements.length) :
    ∃ after, swap elements first second = some after ∧
      (∀ index : Nat, after[index]? = elements[Equiv.swap first second index]?) ∧
      ∀ low high : Int, low ≤ first → first ≤ high → low ≤ second → second ≤ high →
        Rearranged low high elements after := by
  have lookup := getElem?_swapped one two
  refine ⟨(elements.set first elements[second]).set second elements[first], ?_, lookup, ?_⟩
  -- Both numbers are written within the list.
  · have placed := put_natCast one elements[second]
    have placed_ : put (elements.set first elements[second]) second elements[first] = _ :=
      put_natCast (by simpa using two) _
    simp [swap, one, two, placed, placed_]
  · intro low high above below above_ below_
    refine ⟨List.set_set_perm one two, fun index out => ?_,
      fun holds all index value in_ in__ at_ => ?_⟩
    · rw [lookup, Equiv.swap_apply_of_ne_of_ne]
      · rintro rfl
        exact out ⟨above, below⟩
      · rintro rfl
        exact out ⟨above_, below_⟩
    -- A place within the bounds is swapped with one within the bounds.
    · rw [lookup] at at_
      refine all (Equiv.swap first second index) value ?_ ?_ at_
      · rw [Equiv.swap_apply_def]
        split
        · exact above_
        · split
          · exact above
          · exact in_
      · rw [Equiv.swap_apply_def]
        split
        · exact below_
        · split
          · exact below
          · exact in__

end Indexed

end SysProg
