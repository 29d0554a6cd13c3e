import SysProg.Cgroups.AllocMem

/-! The loop over a block touches every page of it, unless the block is too large for the index. -/

namespace SysProg.Cgroups.AllocMem

variable {blockSize : UInt64}

/-- What is promised of the loop over a block. -/
structure TouchesEveryPage (block : Block blockSize) (result : Touching blockSize) : Prop where
  /-- The loop comes to its end, and its index has not overflowed before. -/
  ending : result.ending = .done
  /-- No offset is written twice, and the lower ones are written first. -/
  inOrder : result.touched.Pairwise (· < ·)
  /-- The offsets that are written are the multiples of 1024 inside the block. -/
  offsets : ∀ offset, offset ∈ result.touched ↔ 1024 ∣ offset ∧ offset < blockSize.toNat
  /-- There are null bytes at these offsets, and all other bytes are as they were. -/
  bytes : ∀ (offset : Nat) (inside : offset < blockSize.toNat),
    result.block[offset] = if 1024 ∣ offset then 0 else block[offset]

/-- What the loop does from an index on, if that and the following ones are in the range. -/
structure TouchesFrom (block : Block blockSize) (k : Nat) (result : Touching blockSize) :
    Prop where
  ending : result.ending = .done
  inOrder : result.touched.Pairwise (· < ·)
  offsets : ∀ offset, offset ∈ result.touched ↔
    k ≤ offset ∧ 1024 ∣ offset ∧ offset < blockSize.toNat
  bytes : ∀ (offset : Nat) (inside : offset < blockSize.toNat),
    result.block[offset] = if k ≤ offset ∧ 1024 ∣ offset then 0 else block[offset]

/-- In a block that is small enough, even the index behind the last page is an `int`. -/
theorem touchLoop_from (small : blockSize.toNat ≤ 2 ^ 31 - 1024) (block : Block blockSize) (k : Nat)
    (aligned : 1024 ∣ k) : TouchesFrom block k (touchLoop block k) := by
  -- The induction follows the loop; a step writes the byte at the index, and no other.
  fun_induction touchLoop block k with
  | case1 block k inside next fits later ih =>
    obtain ⟨ending, inOrder, offsets, bytes⟩ := ih ((Nat.dvd_add_right aligned).mpr (dvd_refl 1024))
    refine ⟨ending, ?_, fun offset => ?_, fun offset there => ?_⟩
    · refine List.pairwise_cons.mpr ⟨fun offset mem => ?_, inOrder⟩
      have behind := ((offsets offset).mp mem).1
      omega
    · rw [List.mem_cons, offsets]
      constructor
      · rintro (rfl | ⟨behind, multiple, below⟩)
        · exact ⟨le_rfl, aligned, inside⟩
        · exact ⟨by omega, multiple, below⟩
      · rintro ⟨from_, multiple, below⟩
        rcases from_.eq_or_lt with same | less
        · exact .inl same.symm
        · exact .inr ⟨by omega, multiple, below⟩
    · rw [bytes offset there]
      -- The byte at the index is behind none of the later ones, which leave it alone.
      by_cases here : offset = k
      · subst here
        rw [if_neg (by omega), if_pos ⟨le_rfl, aligned⟩]
        exact Vector.getElem_setIfInBounds_self ..
      · have other : next[offset] = block[offset] :=
          Vector.getElem_setIfInBounds_ne _ (Ne.symm here)
        rw [other]
        refine if_congr ⟨fun both => ⟨by omega, both.2⟩, fun both => ⟨?_, both.2⟩⟩ rfl rfl
        omega
  | case2 block k inside next past =>
    -- The index stays in the range as long as it is inside the block.
    exfalso
    unfold intMax at past
    omega
  | case3 block k outside =>
    refine ⟨rfl, .nil, fun offset => ?_, fun offset there => ?_⟩
    · simp only [List.not_mem_nil, false_iff]
      omega
    · rw [if_neg (by omega)]

/-- If the loop comes to its end, the block is not too large for the index. -/
theorem small_of_done {block : Block blockSize} {k : Nat} (aligned : 1024 ∣ k) (fits : k ≤ intMax)
    (done : (touchLoop block k).ending = .done) : blockSize.toNat ≤ 2 ^ 31 - 1024 := by
  fun_induction touchLoop block k with
  | case1 block k inside next fits_ later ih =>
    exact ih ((Nat.dvd_add_right aligned).mpr (dvd_refl 1024)) fits_ done
  | case2 block k inside next past => cases done
  | case3 block k outside =>
    -- The largest multiple of 1024 that is an `int` is not behind the block, otherwise.
    unfold intMax at fits
    omega

/-- The loop does what it is for, exactly in blocks that end at least 1024 bytes below 2 GiB. -/
theorem touch_touchesEveryPage_iff (block : Block blockSize) :
    TouchesEveryPage block (touch block) ↔ blockSize.toNat ≤ 2 ^ 31 - 1024 := by
  -- If the loop ends, its last index has not overflowed; and for a small size it runs through.
  constructor
  · intro touches
    exact small_of_done (dvd_zero 1024) (Nat.zero_le intMax) touches.ending
  · intro small
    obtain ⟨ending, inOrder, offsets, bytes⟩ := touchLoop_from small block 0 (dvd_zero 1024)
    refine ⟨ending, inOrder, fun offset => ?_, fun offset inside => ?_⟩
    · simpa [touch] using offsets offset
    · simpa [touch] using bytes offset inside

/-- In a block of 3 GiB, the index overflows before the last page. -/
theorem touch_not_touchesEveryPage :
    ∃ (blockSize : UInt64) (block : Block blockSize), ¬ TouchesEveryPage block (touch block) := by
  refine ⟨3221225472, Vector.replicate _ 0, fun touches => ?_⟩
  have small := small_of_done (dvd_zero 1024) (Nat.zero_le intMax) touches.ending
  exact absurd small (by decide)

end SysProg.Cgroups.AllocMem
