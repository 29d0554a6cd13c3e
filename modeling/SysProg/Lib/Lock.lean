import Mathlib.Tactic

/-! Locks of several kinds, and what it means that such a lock excludes all but one. -/

namespace SysProg

/-- A lock, where asking for it may block, and giving it back may fail. -/
structure Lock (Owner σ : Type) where
  initial : σ
  /-- Nothing as long as the caller has to wait. -/
  acquire : Owner → σ → Option σ
  /-- Nothing if the call fails. -/
  release : Owner → σ → Option σ

namespace Lock

variable {Owner σ : Type}

/-- A lock is held by one owner at most, who can always give it back. -/
structure Excludes (lock : Lock Owner σ) (held : σ → Option Owner → Prop) : Prop where
  initial : held lock.initial none
  acquire : ∀ state owner, held state none →
    ∃ next, lock.acquire owner state = some next ∧ held next (some owner)
  blocked : ∀ state owner other, held state (some other) → lock.acquire owner state = none
  release : ∀ state owner, held state (some owner) →
    ∃ next, lock.release owner state = some next ∧ held next none

section Owned

variable [DecidableEq Owner]

/-- A mutex, which only its owner can unlock. -/
def mutex : Lock Owner (Option Owner) where
  initial := none
  acquire owner
    | none => some (some owner)
    | some _ => none
  release owner holder := if holder = some owner then some none else none

/-- A lock for many readers or one writer. -/
structure ReadersWriter (Owner : Type) where
  readers : Nat
  writer : Option Owner

/-- A lock for many readers or one writer, which is only asked for by writers. -/
def writeLock : Lock Owner (ReadersWriter Owner) where
  initial := ⟨0, none⟩
  acquire owner
    | ⟨0, none⟩ => some ⟨0, some owner⟩
    | _ => none
  release owner lock :=
    if lock.writer = some owner then some { lock with writer := none } else none

/-- A mutex excludes all but its owner. -/
theorem mutex_excludes :
    (mutex : Lock Owner (Option Owner)).Excludes fun state holder => state = holder where
  -- The mutex is its owner, or nobody.
  initial := rfl
  acquire := by
    rintro state owner rfl
    exact ⟨some owner, rfl, rfl⟩
  blocked := by
    rintro state owner other rfl
    rfl
  release := by
    rintro state owner rfl
    exact ⟨none, if_pos rfl, rfl⟩

/-- A lock that is only asked for by writers excludes all but one of them. -/
theorem writeLock_excludes :
    (writeLock : Lock Owner (ReadersWriter Owner)).Excludes
      fun state holder => state = ⟨0, holder⟩ where
  -- There are no readers, so the lock is its writer, or nobody.
  initial := rfl
  acquire := by
    rintro state owner rfl
    exact ⟨⟨0, some owner⟩, rfl, rfl⟩
  blocked := by
    rintro state owner other rfl
    rfl
  release := by
    rintro state owner rfl
    exact ⟨⟨0, none⟩, if_pos rfl, rfl⟩

end Owned

/-- A spin lock, which does not know its owner. -/
def spinLock : Lock Owner Bool where
  initial := false
  acquire _ locked := if locked then none else some true
  release _ _ := some false

/-- A semaphore, which is waited for when its value is 0. -/
def semaphore (value : Nat) : Lock Owner Nat where
  initial := value
  acquire _
    | 0 => none
    | value + 1 => some value
  release _ value := some (value + 1)

/-- A spin lock excludes all but one. -/
theorem spinLock_excludes :
    (spinLock : Lock Owner Bool).Excludes fun state holder => state = holder.isSome where
  -- The lock does not know who holds it, only whether somebody does.
  initial := rfl
  acquire := by
    rintro state owner rfl
    exact ⟨true, rfl, rfl⟩
  blocked := by
    rintro state owner other rfl
    rfl
  release := by
    rintro state owner rfl
    exact ⟨false, rfl, rfl⟩

/-- A semaphore that begins with 1 excludes all but one. -/
theorem semaphore_excludes :
    (semaphore 1 : Lock Owner Nat).Excludes fun state holder =>
      state = if holder.isSome then 0 else 1 where
  -- The semaphore is 1 as long as nobody has decremented it.
  initial := rfl
  acquire := by
    rintro state owner rfl
    exact ⟨0, rfl, rfl⟩
  blocked := by
    rintro state owner other rfl
    rfl
  release := by
    rintro state owner rfl
    exact ⟨1, rfl, rfl⟩

end Lock

end SysProg
