import Mathlib.Tactic
import Mathlib.Data.List.Nodup

/-! Lists of items with keys, in which an item is found, changed, added and removed by its key. -/

namespace SysProg.KeyedList

variable {Item Key : Type*} [DecidableEq Key]

/-- Where the first item with a key is. -/
def find (key : Item → Key) (wanted : Key) (items : List Item) : Option Nat :=
  items.findIdx? fun item => key item = wanted

/-- The items with a key. -/
def under (key : Item → Key) (wanted : Key) (items : List Item) : List Item :=
  items.filter fun item => key item = wanted

/-- Changes the first item with a key, or adds one. -/
def put (key : Item → Key) (wanted : Key) (update : Item → Item) (new : Item)
    (items : List Item) : List Item :=
  match find key wanted items with
  | some index => items.modify index update
  | none => items ++ [new]

/-- Removes the first item with a key, if there is one. -/
def remove (key : Item → Key) (wanted : Key) (items : List Item) : List Item :=
  match find key wanted items with
  | some index => items.eraseIdx index
  | none => items

/-- No two items have the same key. -/
def Distinct (key : Item → Key) (items : List Item) : Prop :=
  (items.map key).Nodup

instance (key : Item → Key) (items : List Item) : Decidable (Distinct key items) :=
  inferInstanceAs (Decidable (items.map key).Nodup)

variable {key : Item → Key} {wanted other : Key} {items : List Item}

/-- There is no item with the key. -/
theorem find_eq_none : find key wanted items = none ↔ ∀ item ∈ items, key item ≠ wanted := by
  simp [find]

/-- There is a first item with the key. -/
theorem exists_of_find {index : Nat} (found : find key wanted items = some index) :
    ∃ front item back, items = front ++ item :: back ∧ front.length = index ∧
      key item = wanted ∧ ∀ earlier ∈ front, key earlier ≠ wanted := by
  -- The item found is the first one with its key.
  obtain ⟨inside, same, first⟩ := List.findIdx?_eq_some_iff_getElem.mp found
  refine ⟨items.take index, items[index], items.drop (index + 1), ?_, ?_, by simpa using same, ?_⟩
  · rw [List.getElem_cons_drop, List.take_append_drop]
  · exact List.length_take_of_le inside.le
  · intro earlier mem
    obtain ⟨place, less, rfl⟩ := List.mem_take_iff_getElem.mp mem
    simpa using first place (by omega)

/-- There are no items with the key. -/
theorem under_eq_nil : under key wanted items = [] ↔ ∀ item ∈ items, key item ≠ wanted := by
  simp [under, List.filter_eq_nil_iff]

/-- The items with a key, when there are some in front and some behind. -/
theorem under_append (front back : List Item) :
    under key wanted (front ++ back) = under key wanted front ++ under key wanted back :=
  List.filter_append ..

/-- An item with the key. -/
theorem under_cons_self {item : Item} (same : key item = wanted) (back : List Item) :
    under key wanted (item :: back) = item :: under key wanted back :=
  List.filter_cons_of_pos (by simpa using same)

/-- An item with another key. -/
theorem under_cons_of_ne {item : Item} (different : key item ≠ wanted) (back : List Item) :
    under key wanted (item :: back) = under key wanted back :=
  List.filter_cons_of_neg (by simpa using different)

/-- Around an item with the key there is no other one. -/
theorem Distinct.around {front back : List Item} {item : Item} (same : key item = wanted)
    (distinct : Distinct key (front ++ item :: back)) :
    under key wanted front = [] ∧ under key wanted back = [] := by
  -- The keys are different, so neither part has an item with this one.
  rw [Distinct, List.map_append, List.map_cons, List.nodup_middle, List.nodup_cons,
    List.mem_append, not_or] at distinct
  obtain ⟨⟨before, behind⟩, -⟩ := distinct
  rw [under_eq_nil, under_eq_nil]
  refine ⟨fun earlier mem wrong => before ?_, fun later mem wrong => behind ?_⟩
  · exact same ▸ wrong ▸ List.mem_map_of_mem mem
  · exact same ▸ wrong ▸ List.mem_map_of_mem mem

/-- Of each key there is at most one item. -/
theorem distinct_iff : Distinct key items ↔ ∀ wanted, (under key wanted items).length ≤ 1 := by
  -- A key is counted as often as there are items under it.
  rw [Distinct, List.nodup_iff_count_le_one]
  refine forall_congr' fun wanted => ?_
  rw [List.count, List.countP_map, List.countP_eq_length_filter]
  rfl

/-- The item behind the front is changed. -/
theorem modify_length (front : List Item) (item : Item) (back : List Item)
    (update : Item → Item) :
    (front ++ item :: back).modify front.length update = front ++ update item :: back := by
  rw [List.modify_eq_take_cons_drop (by simp)]
  simp

section Put

variable {update : Item → Item} {new : Item}

variable (wanted update new) in
/-- The items with the key are those around which nothing changes. -/
theorem put_eq (distinct : Distinct key items) :
    ∃ front back, items = front ++ under key wanted items ++ back ∧
      under key wanted front = [] ∧ under key wanted back = [] ∧
      put key wanted update new items =
        front ++ [((under key wanted items).head?.map update).getD new] ++ back := by
  -- The item is changed where it is found, or added at the end.
  cases found : find key wanted items with
  | none =>
    have absent := under_eq_nil.mpr (find_eq_none.mp found)
    refine ⟨items, [], by simp [absent], absent, rfl, ?_⟩
    simp [put, found, absent]
  | some index =>
    obtain ⟨front, item, back, rfl, rfl, same, -⟩ := exists_of_find found
    obtain ⟨before, behind⟩ := distinct.around same
    have one : under key wanted (front ++ item :: back) = [item] := by
      rw [under_append, under_cons_self same, before, behind]
      rfl
    refine ⟨front, back, by simp [one], before, behind, ?_⟩
    rw [put, found, one]
    dsimp only
    rw [modify_length]
    simp

variable (kept : ∀ item, key item = wanted → key (update item) = wanted) (fresh : key new = wanted)
include kept fresh

variable (items) in
/-- What is put has the key. -/
theorem key_put : key (((under key wanted items).head?.map update).getD new) = wanted := by
  -- The item is changed, which keeps its key, or it is new.
  cases under_ : under key wanted items with
  | nil => exact fresh
  | cons item rest =>
    have mem : item ∈ under key wanted items := under_ ▸ List.mem_cons_self
    exact kept item (by simpa using (List.mem_filter.mp mem).2)

/-- There is one item with the key then. -/
theorem under_put_self (distinct : Distinct key items) :
    under key wanted (put key wanted update new items) =
      [((under key wanted items).head?.map update).getD new] := by
  -- There is one item under the key, and none before or behind it.
  obtain ⟨front, back, -, before, behind, same⟩ :=
    put_eq wanted update new distinct
  rw [same, under_append, under_append, before, behind, List.nil_append, List.append_nil,
    under_cons_self (key_put items kept fresh)]
  rfl

/-- Items with other keys are as they were. -/
theorem under_put_of_ne (distinct : Distinct key items) (different : other ≠ wanted) :
    under key other (put key wanted update new items) = under key other items := by
  -- The items with the other key are in front and behind.
  obtain ⟨front, back, split, -, -, same⟩ :=
    put_eq wanted update new distinct
  have none_ : under key other (under key wanted items) = [] := by
    rw [under_eq_nil]
    intro item mem wrong
    have here : key item = wanted := by simpa using (List.mem_filter.mp mem).2
    exact different (wrong ▸ here)
  have one : key (((under key wanted items).head?.map update).getD new) ≠ other :=
    fun wrong => different (wrong ▸ key_put items kept fresh)
  rw [same, under_append, under_append, under_cons_of_ne one]
  conv_rhs => rw [split, under_append, under_append, none_]
  rfl

/-- What does not look at items with the key sees no difference. -/
theorem filter_put (distinct : Distinct key items) {sees : Item → Bool}
    (skips : ∀ item, key item = wanted → sees item = false) :
    (put key wanted update new items).filter sees = items.filter sees := by
  -- What is seen is in front and behind.
  obtain ⟨front, back, split, -, -, same⟩ :=
    put_eq wanted update new distinct
  have none_ : (under key wanted items).filter sees = [] := by
    rw [List.filter_eq_nil_iff]
    intro item mem
    have here : key item = wanted := by simpa using (List.mem_filter.mp mem).2
    simp [skips item here]
  have one := skips _ (key_put items kept fresh)
  rw [same, List.filter_append, List.filter_append, List.filter_cons_of_neg (by simp [one])]
  conv_rhs => rw [split, List.filter_append, List.filter_append, none_]
  rfl

/-- No key comes twice when something is put. -/
theorem distinct_put (distinct : Distinct key items) :
    Distinct key (put key wanted update new items) := by
  rw [distinct_iff]
  intro other
  -- Under the key there is one item, and under the others what was there.
  by_cases same : other = wanted
  · subst same
    rw [under_put_self kept fresh distinct]
    rfl
  · rw [under_put_of_ne kept fresh distinct same]
    exact distinct_iff.mp distinct other

end Put

/-- No item with the key is left. -/
theorem under_remove_self (distinct : Distinct key items) :
    under key wanted (remove key wanted items) = [] := by
  -- The item that is removed was the only one with the key.
  cases found : find key wanted items with
  | none =>
    rw [remove, found]
    exact under_eq_nil.mpr (find_eq_none.mp found)
  | some index =>
    obtain ⟨front, item, back, rfl, rfl, same, -⟩ := exists_of_find found
    obtain ⟨before, behind⟩ := distinct.around same
    rw [remove, found]
    dsimp only
    rw [List.eraseIdx_append_of_length_le le_rfl, Nat.sub_self, List.eraseIdx_cons_zero,
      under_append, before, behind]
    rfl

/-- Items with other keys are as they were. -/
theorem under_remove_of_ne (different : other ≠ wanted) :
    under key other (remove key wanted items) = under key other items := by
  -- The item that is removed has another key.
  cases found : find key wanted items with
  | none => rw [remove, found]
  | some index =>
    obtain ⟨front, item, back, rfl, rfl, same, -⟩ := exists_of_find found
    rw [remove, found]
    dsimp only
    rw [List.eraseIdx_append_of_length_le le_rfl, Nat.sub_self, List.eraseIdx_cons_zero,
      under_append, under_append, under_cons_of_ne (same ▸ different.symm)]

/-- No key comes twice when something is removed. -/
theorem distinct_remove (distinct : Distinct key items) :
    Distinct key (remove key wanted items) := by
  rw [distinct_iff]
  intro other
  -- Under the key there is no item, and under the others what was there.
  by_cases same : other = wanted
  · subst same
    rw [under_remove_self distinct]
    exact Nat.zero_le 1
  · rw [under_remove_of_ne same]
    exact distinct_iff.mp distinct other

end SysProg.KeyedList
