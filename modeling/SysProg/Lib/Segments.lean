import Mathlib.Tactic

/-! Segments of a stream, and receivers that put the stream together again. -/

namespace SysProg

variable {Byte State : Type*}

/-- A part of a stream, with the number of its first byte. -/
structure NumberedSegment (Byte : Type*) where
  seq : Int
  data : List Byte
  deriving DecidableEq

namespace NumberedSegment

variable {segment : NumberedSegment Byte} {first : Int} {stream delivered : List Byte}

/-- The segment is what the stream has there, when its first byte has this number. -/
def Fits (first : Int) (stream : List Byte) (segment : NumberedSegment Byte) : Prop :=
  ∃ front back, stream = front ++ (segment.data ++ back) ∧ segment.seq = first + front.length

theorem Fits.append (fits : segment.Fits first stream) (more : List Byte) :
    segment.Fits first (stream ++ more) := by
  obtain ⟨front, back, rfl, number⟩ := fits
  exact ⟨front, back ++ more, by simp, number⟩

/-- What has been delivered, with what the segment adds if it does not begin too late. -/
def addTo (first : Int) (delivered : List Byte) (segment : NumberedSegment Byte) : List Byte :=
  if segment.seq ≤ first + delivered.length then
    delivered ++ segment.data.drop (first + delivered.length - segment.seq).toNat
  else delivered

theorem prefix_addTo : delivered <+: segment.addTo first delivered := by
  rw [addTo]
  -- The segment is delivered, or it is dropped.
  split
  · exact List.prefix_append _ _
  · exact List.prefix_refl _

/-- Only what comes next in the stream is added. -/
theorem addTo_sound (fits : segment.Fits first stream) (sound : delivered <+: stream) :
    segment.addTo first delivered <+: stream := by
  rw [addTo]
  split
  next early =>
    obtain ⟨front, back, rfl, number⟩ := fits
    have whole := List.prefix_iff_eq_append.mp sound
    -- The bytes that have not been delivered begin inside the segment, or behind it.
    have skipped : (first + delivered.length - segment.seq).toNat =
        delivered.length - front.length := by omega
    have later : front.drop delivered.length = [] := by
      refine List.drop_eq_nil_of_le ?_
      omega
    rw [List.drop_append, later, List.nil_append, List.drop_append] at whole
    rw [skipped, ← whole, ← List.append_assoc]
    exact List.prefix_append _ _
  · exact sound

/-- All bytes of a segment that does not begin too late are delivered. -/
theorem le_length_addTo (early : segment.seq ≤ first + delivered.length) :
    segment.seq + segment.data.length ≤ first + (segment.addTo first delivered).length := by
  rw [addTo, if_pos early, List.length_append, List.length_drop]
  omega

end NumberedSegment

/-- Something that is given segments, and delivers what they contain. -/
structure Receiver (Byte State : Type*) where
  start : State
  receive : State → NumberedSegment Byte → State
  delivered : State → List Byte

namespace Receiver

/-- The states in which only segments of this stream have been received. -/
inductive Received (receiver : Receiver Byte State) (first : Int) (stream : List Byte) :
    State → Prop
  | start : Received receiver first stream receiver.start
  | receive {state : State} {segment : NumberedSegment Byte}
    (before : Received receiver first stream state) (fits : segment.Fits first stream) :
    Received receiver first stream (receiver.receive state segment)

/-- What is asked of a receiver, whatever the order of the segments. -/
structure Correct (receiver : Receiver Byte State) (first : Int) : Prop where
  /-- Nothing that has been delivered is taken back. -/
  grows : ∀ state segment,
    receiver.delivered state <+: receiver.delivered (receiver.receive state segment)
  /-- The stream is delivered in order, without gaps and without repetitions. -/
  sound : ∀ stream state, receiver.Received first stream state →
    receiver.delivered state <+: stream
  /-- A segment with the byte that is expected next is accepted. -/
  accepts : ∀ stream state segment, receiver.Received first stream state →
    segment.Fits first stream → segment.seq ≤ first + (receiver.delivered state).length →
      segment.seq + segment.data.length ≤
        first + (receiver.delivered (receiver.receive state segment)).length

variable {receiver : Receiver Byte State} {first : Int} {stream : List Byte} {state : State}

theorem Received.append (received : receiver.Received first stream state) (more : List Byte) :
    receiver.Received first (stream ++ more) state := by
  induction received with
  | start => exact .start
  | receive before fits ih => exact .receive ih (fits.append more)

/-- The receiver that discards segments out of order. -/
def discarding (first : Int) : Receiver Byte (List Byte) where
  start := []
  receive delivered segment := segment.addTo first delivered
  delivered := id

theorem discarding_correct : (discarding first : Receiver Byte (List Byte)).Correct first where
  grows _ _ := NumberedSegment.prefix_addTo
  sound stream state received := by
    -- By induction on the segments that were received.
    induction received with
    | start => exact List.nil_prefix
    | receive before fits ih => exact NumberedSegment.addTo_sound fits ih
  accepts _ _ _ _ _ early := NumberedSegment.le_length_addTo early

/-- Adding all of these segments so often. -/
def addAll (first : Int) (kept : List (NumberedSegment Byte)) : Nat → List Byte → List Byte
  | 0, delivered => delivered
  | rounds + 1, delivered =>
    addAll first kept rounds (kept.foldl (fun delivered segment => segment.addTo first delivered)
      delivered)

theorem prefix_foldl (kept : List (NumberedSegment Byte)) (delivered : List Byte) :
    delivered <+: kept.foldl (fun delivered segment => segment.addTo first delivered)
      delivered := by
  induction kept generalizing delivered with
  | nil => exact List.prefix_refl _
  | cons segment kept ih => exact NumberedSegment.prefix_addTo.trans (ih _)

theorem prefix_addAll (kept : List (NumberedSegment Byte)) (rounds : Nat) (delivered : List Byte) :
    delivered <+: addAll first kept rounds delivered := by
  induction rounds generalizing delivered with
  | zero => exact List.prefix_refl _
  | succ rounds ih => exact (prefix_foldl kept delivered).trans (ih _)

theorem addAll_sound {kept : List (NumberedSegment Byte)} {delivered : List Byte} (rounds : Nat)
    (fits : ∀ segment ∈ kept, segment.Fits first stream) (sound : delivered <+: stream) :
    addAll first kept rounds delivered <+: stream := by
  -- One pass over the segments that were kept delivers only what the stream has.
  have once : ∀ (some_ : List (NumberedSegment Byte)) (delivered : List Byte),
      (∀ segment ∈ some_, segment.Fits first stream) → delivered <+: stream →
        some_.foldl (fun delivered segment => segment.addTo first delivered) delivered <+:
          stream := by
    intro some_
    induction some_ with
    | nil => exact fun _ _ sound => sound
    | cons segment some_ ih =>
      intro delivered fits sound
      refine ih _ (fun other mem => fits other (List.mem_cons_of_mem _ mem)) ?_
      exact NumberedSegment.addTo_sound (fits segment List.mem_cons_self) sound
  induction rounds generalizing delivered with
  | zero => exact sound
  | succ rounds ih => exact ih (once kept delivered fits sound)

/-- The receiver that keeps segments out of order until the gap has been filled. -/
def keeping (first : Int) : Receiver Byte (List Byte × List (NumberedSegment Byte)) where
  start := ([], [])
  receive state segment :=
    (addAll first (segment :: state.2) (state.2.length + 1) state.1, segment :: state.2)
  delivered := Prod.fst

theorem keeping_correct :
    (keeping first : Receiver Byte (List Byte × List (NumberedSegment Byte))).Correct first where
  grows _ _ := prefix_addAll _ _ _
  sound stream state received := by
    have both : state.1 <+: stream ∧ ∀ segment ∈ state.2, segment.Fits first stream := by
      induction received with
      | start => exact ⟨List.nil_prefix, fun _ mem => absurd mem List.not_mem_nil⟩
      | receive before fits ih =>
        have all := List.forall_mem_cons.mpr ⟨fits, ih.2⟩
        exact ⟨addAll_sound _ all ih.1, all⟩
    exact both.1
  accepts stream state segment _ _ early := by
    -- The new segment is the first one that is added.
    have added := NumberedSegment.le_length_addTo early
    have more : segment.addTo first state.1 <+:
        addAll first (segment :: state.2) (state.2.length + 1) state.1 :=
      (prefix_foldl state.2 _).trans (prefix_addAll (segment :: state.2) state.2.length _)
    refine added.trans ?_
    exact Int.add_le_add_left (Int.ofNat_le.mpr more.length_le) first

end Receiver

end SysProg
