import Mathlib.Logic.Function.Basic
import Mathlib.Tactic

/-! Mutexes, whose owner is whoever is inside the code that they guard. -/

namespace SysProg

variable {Owner α : Type*}

/-- Whoever is inside the guarded code owns the mutex, which is free when nobody is inside. -/
def Guards (mutex : Option Owner) (inside : Owner → Prop) : Prop :=
  ∀ owner, inside owner ↔ mutex = some owner

namespace Guards

variable {mutex : Option Owner} {inside after : Owner → Prop}

/-- No two owners are inside. -/
theorem exclusive (guards : Guards mutex inside) {one two : Owner} (first : inside one)
    (second : inside two) : one = two := by
  have left := (guards one).mp first
  have right := (guards two).mp second
  exact Option.some.inj (left.symm.trans right)

/-- Nobody is inside while the mutex is free. -/
theorem nobody (guards : Guards none inside) (owner : Owner) : ¬ inside owner := by
  intro within
  exact nomatch (guards owner).mp within

/-- The mutex stays as it is while nobody goes in or out. -/
theorem keep (guards : Guards mutex inside) (same : ∀ owner, after owner ↔ inside owner) :
    Guards mutex after := by
  intro owner
  rw [same owner]
  exact guards owner

/-- Whoever locks a free mutex is alone inside. -/
theorem lock (guards : Guards none inside) (owner : Owner) (enters : after owner)
    (others : ∀ other, other ≠ owner → (after other ↔ inside other)) :
    Guards (some owner) after := by
  intro other
  by_cases same : other = owner
  · subst same
    exact ⟨fun _ => rfl, fun _ => enters⟩
  · -- The others are outside, before and after.
    have outside : ¬ after other := by
      rw [others other same]
      exact guards.nobody other
    exact ⟨fun within => absurd within outside, fun held => absurd (Option.some.inj held).symm same⟩

/-- Nobody is left inside by whoever unlocks the mutex. -/
theorem unlock (guards : Guards mutex inside) (owner : Owner) (within : inside owner)
    (leaves : ¬ after owner) (others : ∀ other, other ≠ owner → (after other ↔ inside other)) :
    Guards none after := by
  intro other
  -- Whoever else was inside would have owned the mutex too.
  have outside : ¬ after other := by
    by_cases same : other = owner
    · rw [same]
      exact leaves
    · rw [others other same]
      exact fun too => same (guards.exclusive too within)
  exact ⟨fun within => absurd within outside, nofun⟩

section Family

variable [DecidableEq Owner] {holds : α → Prop} {places : Owner → α} {place : α} {owner : Owner}

/-- Only the place of the one that moves changes. -/
theorem others_update (owner : Owner) (place : α) (other : Owner) (different : other ≠ owner) :
    holds (Function.update places owner place other) ↔ holds (places other) := by
  rw [Function.update_of_ne different]

/-- A member of a family that moves within the guarded code, or outside of it, keeps the mutex. -/
theorem keep_update (guards : Guards mutex fun other => holds (places other))
    (same : holds place ↔ holds (places owner)) :
    Guards mutex fun other => holds (Function.update places owner place other) := by
  apply guards.keep
  intro other
  -- The others have not moved at all.
  by_cases mine : other = owner
  · rw [mine, Function.update_self]
    exact same
  · exact others_update owner place other mine

/-- A member of a family locks the mutex. -/
theorem lock_update (guards : Guards none fun other => holds (places other))
    (enters : holds place) :
    Guards (some owner) fun other => holds (Function.update places owner place other) := by
  -- The owner is inside now, and the others are where they were.
  refine guards.lock owner ?_ (others_update owner place)
  rw [Function.update_self]
  exact enters

/-- A member of a family unlocks the mutex. -/
theorem unlock_update (guards : Guards mutex fun other => holds (places other))
    (within : holds (places owner)) (leaves : ¬ holds place) :
    Guards none fun other => holds (Function.update places owner place other) := by
  -- The owner is outside now, and the others are where they were.
  refine guards.unlock owner within ?_ (others_update owner place)
  rw [Function.update_self]
  exact leaves

end Family

end Guards

/-- A main thread, or one of the other threads. -/
inductive Party (ι : Type*) where
  | main
  | member (index : ι)
  deriving DecidableEq, Repr

/-- Who is inside the guarded code, as the main thread and the others stand. -/
def Party.Inside {ι : Type*} (main : Prop) (others : ι → Prop) : Party ι → Prop
  | .main => main
  | .member index => others index

namespace Guards

section Parties

variable {ι : Type*} {mutex : Option (Party ι)} {main after : Prop} {others : ι → Prop}

/-- The others stand where they do when the main thread moves. -/
theorem others_main (party : Party ι) (other : party ≠ .main) :
    Party.Inside after others party ↔ Party.Inside main others party := by
  cases party with
  | main => exact absurd rfl other
  | member index => exact Iff.rfl

/-- The main thread moves within the guarded code, or outside of it. -/
theorem keep_main (guards : Guards mutex (Party.Inside main others)) (same : after ↔ main) :
    Guards mutex (Party.Inside after others) := by
  apply guards.keep
  intro party
  -- main is inside as before, and the others have not moved.
  cases party with
  | main => exact same
  | member index => exact Iff.rfl

/-- The main thread locks the mutex. -/
theorem lock_main (guards : Guards none (Party.Inside main others)) (enters : after) :
    Guards (some .main) (Party.Inside after others) :=
  guards.lock .main enters others_main

/-- The main thread unlocks the mutex. -/
theorem unlock_main (guards : Guards mutex (Party.Inside main others)) (within : main)
    (leaves : ¬ after) : Guards none (Party.Inside after others) :=
  guards.unlock .main within leaves others_main

variable [DecidableEq ι] {holds : α → Prop} {places : ι → α} {place : α} {index : ι}

/-- All but the thread that moves stand where they do. -/
theorem others_member (party : Party ι) (other : party ≠ .member index) :
    Party.Inside main (fun i => holds (Function.update places index place i)) party ↔
      Party.Inside main (fun i => holds (places i)) party := by
  -- Another member is at its own place.
  cases party with
  | main => exact Iff.rfl
  | member another =>
    have different : another ≠ index := fun same => other (same ▸ rfl)
    exact others_update index place another different

/-- The thread that moves is inside as its new place says. -/
theorem inside_member :
    Party.Inside main (fun i => holds (Function.update places index place i)) (.member index) ↔
      holds place := by
  simp only [Party.Inside, Function.update_self]

/-- Another thread moves within the guarded code, or outside of it. -/
theorem keep_member (guards : Guards mutex (Party.Inside main fun i => holds (places i)))
    (same : holds place ↔ holds (places index)) :
    Guards mutex (Party.Inside main fun i => holds (Function.update places index place i)) := by
  apply guards.keep
  intro party
  -- The main thread and the other threads have not moved.
  by_cases mine : party = .member index
  · rw [mine, inside_member]
    exact same
  · exact others_member party mine

/-- Another thread locks the mutex. -/
theorem lock_member (guards : Guards none (Party.Inside main fun i => holds (places i)))
    (enters : holds place) :
    Guards (some (.member index))
      (Party.Inside main fun i => holds (Function.update places index place i)) :=
  guards.lock (.member index) (inside_member.mpr enters) others_member

/-- Another thread unlocks the mutex. -/
theorem unlock_member (guards : Guards mutex (Party.Inside main fun i => holds (places i)))
    (within : holds (places index)) (leaves : ¬ holds place) :
    Guards none (Party.Inside main fun i => holds (Function.update places index place i)) :=
  guards.unlock (.member index) within (inside_member.not.mpr leaves) others_member

end Parties

end Guards

end SysProg
