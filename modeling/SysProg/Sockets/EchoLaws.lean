import Mathlib.Data.List.TakeWhile
import SysProg.Sockets.Echo

/-! What is typed comes back in whole, whatever the sizes of the reads and writes are. -/

namespace SysProg.Sockets.Echo

open Pipeline

variable {server : Server} {roomToServer roomToClient : Nat}

/-- Both servers have the same loop. -/
theorem loop_eq (server : Server) (room : Nat) : server.loop room = ⟨4096, id, some room⟩ := by
  cases server with
  | isEchoSv => rfl
  | isEchoInetdSv => rfl

/-- Text without null bytes is printed as it is. -/
theorem printed_of_text {chunk : List UInt8} (text : ∀ byte ∈ chunk, byte ≠ 0) :
    printed chunk = chunk :=
  List.takeWhile_eq_self_iff.mpr fun byte mem => decide_eq_true (text byte mem)

/-- What is printed has no null bytes. -/
theorem printed_text (chunk : List UInt8) : ∀ byte ∈ printed chunk, byte ≠ 0 := by
  intro byte mem
  have kept := List.mem_takeWhile_imp (p := fun byte : UInt8 => decide (byte ≠ 0)) mem
  exact of_decide_eq_true kept

/-- All loops write what they read, if it has no null bytes. -/
theorem echo_clear :
    ∀ stage ∈ echo server roomToServer roomToClient, ∀ chunk,
      (∀ byte ∈ chunk, byte ≠ 0) → stage.transform chunk = chunk := by
  intro stage mem chunk text
  rw [echo, loop_eq] at mem
  -- Only the last stage prints, and it prints a text without null bytes whole.
  rcases List.mem_cons.mp mem with rfl | mem
  · rfl
  · rcases List.mem_cons.mp mem with rfl | mem
    · rfl
    · obtain rfl := List.mem_singleton.mp mem
      exact printed_of_text text

/-- No loop writes more than it reads. -/
theorem echo_shrinks :
    ∀ stage ∈ echo server roomToServer roomToClient, ∀ chunk,
      (stage.transform chunk).length ≤ chunk.length := by
  intro stage mem chunk
  rw [echo, loop_eq] at mem
  -- Only the last stage may leave something out.
  rcases List.mem_cons.mp mem with rfl | mem
  · exact le_rfl
  · rcases List.mem_cons.mp mem with rfl | mem
    · exact le_rfl
    · obtain rfl := List.mem_singleton.mp mem
      exact (List.takeWhile_sublist _).length_le

/-- What is promised of a service that gives back what it is given. -/
structure Echoes (stages : List (Stage UInt8)) (text : List UInt8) : Prop where
  /-- Without null bytes, nothing but the beginning of the text has been printed at any time. -/
  partly : ∀ actions state, (machine UInt8).run (initial stages text) actions = some state →
    0 ∉ text → output state.input state.segments <+: text
  /-- Nobody waits for ever. -/
  progress : ∀ actions state, (machine UInt8).run (initial stages text) actions = some state →
    (∀ segment ∈ state.segments, segment.finished = true) ∨
      ∃ action next, (machine UInt8).step state action = some next
  ends : ∀ actions state, (machine UInt8).run (initial stages text) actions = some state →
    actions.length ≤ stages.length * (2 * text.length + 1)
  /-- In the end the whole text has been printed, exactly if it has no null bytes. -/
  whole : ∀ actions state, (machine UInt8).run (initial stages text) actions = some state →
    (∀ segment ∈ state.segments, segment.finished = true) →
      (output state.input state.segments = text ↔ 0 ∉ text)

/-- With either server, and buffers of any size, the client prints what it has been given. -/
theorem echo_echoes (server : Server) (roomToServer roomToClient : Nat)
    (toServer : 0 < roomToServer) (toClient : 0 < roomToClient) (text : List UInt8) :
    Echoes (echo server roomToServer roomToClient) text := by
  have able : Able (echo server roomToServer roomToClient) := by
    rw [echo, loop_eq]
    simp [Able, isEchoClParent, isEchoClChild, toServer, toClient]
  -- Without null bytes nothing is lost on the way.
  have content : ∀ actions state, (machine UInt8).run
      (initial (echo server roomToServer roomToClient) text) actions = some state → 0 ∉ text →
        content state.input state.segments = text := by
    intro actions state ran plain
    exact content_of_run (echo_clear) (fun byte mem zero => plain (zero ▸ mem)) ran
  refine ⟨fun actions state ran plain => ?_, fun actions state ran => progress_of_run able ran,
    fun actions state ran => length_of_run (echo_shrinks) ran,
    fun actions state ran finished => ?_⟩
  · have start : output state.input state.segments <+:
        Pipeline.content state.input state.segments :=
      output_prefix
    rwa [content actions state ran plain] at start
  · constructor
    · intro whole mem
      have makes : LastMakes (· ≠ 0) (echo server roomToServer roomToClient) := printed_text
      have text_ := output_of_run makes ran 0 (whole ▸ mem)
      exact text_ rfl
    · intro plain
      rw [← content_of_finished (sealed_of_run ran).2 finished]
      exact content actions state ran plain

theorem echo_echoes_small : Echoes (echo .isEchoInetdSv 1 2) [104, 105] :=
  echo_echoes .isEchoInetdSv 1 2 (by decide) (by decide) [104, 105]

end SysProg.Sockets.Echo
