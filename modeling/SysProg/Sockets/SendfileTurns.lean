import Mathlib.Tactic

/-! What turns of reading and writing copy, when not all that is read is written. -/

namespace SysProg.Sockets.Sendfile

/-- What is written by turns that each read so many bytes and write so many of them. -/
def copied (file : List UInt8) (start : Nat) : List (Nat × Nat) → List UInt8
  | [] => []
  | (numRead, numSent) :: rest =>
    ((file.drop start).take numRead).take numSent ++ copied file (start + numRead) rest

/-- More turns read from where the others have stopped. -/
theorem copied_append (file : List UInt8) (start : Nat) (front back : List (Nat × Nat)) :
    copied file start (front ++ back) =
      copied file start front ++ copied file (start + (front.map Prod.fst).sum) back := by
  -- The induction moves the start over one turn at a time.
  induction front generalizing start with
  | nil => rfl
  | cons turn front ih =>
    rw [List.cons_append, copied, copied, ih, List.map_cons, List.sum_cons, List.append_assoc,
      Nat.add_assoc]

/-- Turns that write something, and no more than they have read. -/
def Bounded (turns : List (Nat × Nat)) : Prop :=
  ∀ turn ∈ turns, 0 < turn.2 ∧ turn.2 ≤ turn.1

/-- No more is written than is read. -/
theorem Bounded.sum_le {turns : List (Nat × Nat)} (bounded : Bounded turns) :
    (turns.map Prod.snd).sum ≤ (turns.map Prod.fst).sum :=
  List.sum_le_sum fun turn mem => (bounded turn mem).2

/-- If as much is written as is read, every turn has written all that it has read. -/
theorem Bounded.eq_of_sum {turns : List (Nat × Nat)} (bounded : Bounded turns)
    (sums : (turns.map Prod.fst).sum = (turns.map Prod.snd).sum) :
    ∀ turn ∈ turns, turn.1 = turn.2 := by
  induction turns with
  | nil => exact nofun
  | cons turn rest ih =>
    obtain ⟨here, later⟩ := List.forall_mem_cons.mp bounded
    -- No turn can make up for what another has left out.
    have less := Bounded.sum_le later
    simp only [List.map_cons, List.sum_cons] at sums
    exact List.forall_mem_cons.mpr ⟨by omega, ih later (by omega)⟩

/-- As many bytes are written as the turns say, if the file is long enough. -/
theorem copied_length {file : List UInt8} {start : Nat} {turns : List (Nat × Nat)}
    (bounded : Bounded turns) (inside : start + (turns.map Prod.fst).sum ≤ file.length) :
    (copied file start turns).length = (turns.map Prod.snd).sum := by
  -- Every turn writes what it says, because it has read at least as much.
  induction turns generalizing start with
  | nil => rfl
  | cons turn rest ih =>
    obtain ⟨here, later⟩ := List.forall_mem_cons.mp bounded
    rw [List.map_cons, List.sum_cons] at inside ⊢
    rw [copied, List.length_append, ih later (by omega), List.length_take, List.length_take,
      List.length_drop]
    omega

/-- If only the last turn may write less than it has read, the copy has no gaps. -/
theorem copied_eq {file : List UInt8} {start : Nat} {turns : List (Nat × Nat)}
    (bounded : Bounded turns) (full : ∀ turn ∈ turns.dropLast, turn.1 = turn.2) :
    copied file start turns = (file.drop start).take (turns.map Prod.snd).sum := by
  induction turns generalizing start with
  | nil => rfl
  | cons turn rest ih =>
    obtain ⟨here, later⟩ := List.forall_mem_cons.mp bounded
    rw [List.map_cons, List.sum_cons, copied, List.take_take, Nat.min_eq_left here.2]
    cases rest with
    | nil => simp [copied]
    | cons next rest =>
      -- The next turn reads on from where this one has written.
      rw [List.dropLast_cons_cons] at full
      obtain ⟨same, others⟩ := List.forall_mem_cons.mp full
      rw [ih later others, same, List.take_add, List.drop_drop]

/-- A file of zeros with a single one. -/
def marked (length index : Nat) : List UInt8 :=
  (List.range length).map fun i => if i = index then 1 else 0

/-- What is at some place of a marked file. -/
theorem marked_getElem? {length index i : Nat} (inside : i < length) :
    (marked length index)[i]? = some (if i = index then 1 else 0) := by
  rw [marked, List.getElem?_map, List.getElem?_range inside]
  rfl

/-- After a turn that writes less than it has read, another turn copies what comes too late. -/
theorem copied_ne {start length : Nat} {front back : List (Nat × Nat)} {turn next : Nat × Nat}
    (bounded : Bounded (front ++ turn :: next :: back)) (short : turn.2 < turn.1)
    (inside : start + ((front ++ turn :: next :: back).map Prod.fst).sum ≤ length) :
    ∃ file : List UInt8, file.length = length ∧
      copied file start (front ++ turn :: next :: back) ≠
        (file.drop start).take ((front ++ turn :: next :: back).map Prod.snd).sum := by
  -- The file is marked where the next turn should have read from.
  let before := front ++ [turn]
  let sent := (before.map Prod.snd).sum
  let read := (before.map Prod.fst).sum
  have split : front ++ turn :: next :: back = before ++ next :: back := by simp [before]
  rw [split] at bounded inside ⊢
  rw [List.map_append, List.sum_append, List.map_cons, List.sum_cons] at inside
  have boundedBefore : Bounded before := fun turn mem =>
    bounded turn (List.mem_append_left _ mem)
  have boundedFront : Bounded front := fun turn mem =>
    boundedBefore turn (List.mem_append_left _ mem)
  obtain ⟨some_, fits⟩ := bounded next (List.mem_append_right _ List.mem_cons_self)
  have ahead : sent < read := by
    have less := boundedFront.sum_le
    simp only [sent, read, before, List.map_append, List.sum_append, List.map_cons, List.map_nil,
      List.sum_cons, List.sum_nil]
    omega
  refine ⟨marked length (start + sent), by simp [marked], fun same => ?_⟩
  have length_ : (marked length (start + sent)).length = length := by simp [marked]
  -- At that place the copy has the byte that was read too late, which is a zero.
  have at_ := congrArg (fun bytes => bytes[sent]?) same
  have written : (copied (marked length (start + sent)) start before).length = sent :=
    copied_length boundedBefore (by omega)
  simp only [copied_append, copied] at at_
  rw [List.getElem?_append_right written.le, written, Nat.sub_self,
    List.getElem?_append_left (by simp; omega), List.getElem?_take_of_lt some_,
    List.getElem?_take_of_lt (by omega), List.getElem?_drop, marked_getElem? (by omega),
    List.getElem?_take_of_lt (by simp; omega), List.getElem?_drop,
    marked_getElem? (by omega)] at at_
  rw [if_neg (by omega), if_pos rfl] at at_
  exact absurd at_ (by decide)

/-- Behind what is not the last there is something. -/
theorem split_of_mem_dropLast {turn : Nat × Nat} {turns : List (Nat × Nat)}
    (mem : turn ∈ turns.dropLast) : ∃ front next back, turns = front ++ turn :: next :: back := by
  -- The last turn comes behind all others.
  obtain ⟨front, rest, split⟩ := List.append_of_mem mem
  have some_ : turns ≠ [] := by
    rintro rfl
    exact nomatch mem
  rw [← List.dropLast_append_getLast some_, split]
  cases rest with
  | nil => exact ⟨front, _, [], by rw [List.append_assoc]; rfl⟩
  | cons next rest => exact ⟨front, next, _, by rw [List.append_assoc]; rfl⟩

/-- Turns are known from what they read and what they write. -/
theorem turns_ext {turns others : List (Nat × Nat)}
    (reads : turns.map Prod.fst = others.map Prod.fst)
    (sents : turns.map Prod.snd = others.map Prod.snd) : turns = others := by
  exact (List.zip_of_prod reads sents).trans (List.zip_of_prod rfl rfl).symm

end SysProg.Sockets.Sendfile
