import SysProg.Inotify.HandlesLaws

/-! What a call should do with the events that it reads, as its log tells. -/

namespace SysProg.Inotify

/-- Follows the events that were read and not handled, where only the first ones may be handled. -/
def replay (queue : List InotifyEvent) : LogEntry → Option (List InotifyEvent)
  | .read (.events evs) => some (queue ++ evs)
  | .read _ => some queue
  | .event handling =>
    match queue with
    | [] => none
    | ev :: rest =>
      if ev = handling.event then
        match handling.partner with
        | none => some rest
        | some partner => if rest.head? = some partner then some rest.tail else none
      else none

/-- The events that were read and not handled, if all others were handled once and in order. -/
def unhandled (log : List LogEntry) : Option (List InotifyEvent) :=
  log.foldlM replay []

/-- What is right about an event, or a pair of them, that is handled after all this. -/
structure Handling.Right (handling : Handling) (before : List LogEntry) : Prop where
  /-- Two events are handled together only if they are the two events of a rename. -/
  pairs : ∀ partner, handling.partner = some partner → Matches handling.event partner
  /-- The two events of a rename are handled together, unless a watch descriptor is unknown. -/
  together : ∀ next more, unhandled before = some (handling.event :: next :: more) →
    handling.event.kind = .movedFrom → Matches handling.event next →
    handling.partner = some next ∨ handling.action = .unknownWatch
  /-- If no event follows the one that a directory was moved away, a secondary read finds none. -/
  waits : handling.event.kind = .movedFrom → unhandled before = some [handling.event] →
    handling.action = .unknownWatch ∨
      ∃ earlier, earlier ≠ [] ∧ before = earlier ++ [.read .eintr]
  /--
  A directory is handled as moved out only if the next event is not the partner, or if a secondary
  read has found no next event.
  -/
  movedOut : handling.action = .movedOut →
    ∃ rest, unhandled before = some (handling.event :: rest) ∧
      ((∃ next more, rest = next :: more ∧ ¬ Matches handling.event next) ∨
        (rest = [] ∧ ∃ earlier, earlier ≠ [] ∧ before = earlier ++ [.read .eintr]))

/-- The log of a call that has been right so far. -/
structure SafeLog (log : List LogEntry) : Prop where
  /-- Every event is handled at most once, in the order of the stream, and after it was read. -/
  inOrder : (unhandled log).isSome
  events : ∀ before handling after, log = before ++ .event handling :: after →
    handling.Right before
  /-- Nothing is done with the buffer any more when the cache has been built anew. -/
  reinitialized : ∀ before handling after, log = before ++ .event handling :: after →
    handling.reinitialized = true → after = []
  /-- Between two events there is at most one read, besides the one at the start of the call. -/
  secondary : ∀ before first second after,
    log = before ++ .read first :: .read second :: after → before = []

/-- What has happened in a call has made these of the variables of the program. -/
inductive Traces (world : World) (start : Program) : List LogEntry → Program → Prop
  | start : Traces world start [] start
  | read {log : List LogEntry} {program : Program} {count : Nat} {result : ReadResult}
      (before : Traces world start log program)
      (answer : world.read program.inotifyReadCnt count = result) :
    Traces world start (log ++ [.read result])
      { program with inotifyReadCnt := program.inotifyReadCnt + 1 }
  /-- A look at the last event leads to another read. -/
  | hangs {log : List LogEntry} {program : Program} {ev : InotifyEvent}
      (before : Traces world start log program) (queue : unhandled log = some [ev])
      (kind : ev.kind = .movedFrom) : Traces world start log program.counted
  | event {log : List LogEntry} {program after : Program} {handling : Handling}
      {rest : List InotifyEvent} (before : Traces world start log program)
      (queue : unhandled log = some (handling.event :: rest))
      (handles : Handles world program handling.event rest.head? handling after) :
    Traces world start (log ++ [.event handling]) after

/-- Why a call ends the program after all this. -/
inductive Ends (opts : Options) (world : World) (start : Program) : List LogEntry → Exit → Prop
  /-- A read fails, brings nothing, or is the first one and is interrupted. -/
  | read {log : List LogEntry} {result : ReadResult}
      (fails : result = .failed ∨ result = .nothing ∨ (log = [] ∧ result = .eintr)) :
    Ends opts world start (log ++ [.read result]) .failure
  /-- There is a reason to exit when the next event is handled, which does not hang any more. -/
  | event {log : List LogEntry} {program : Program} {ev : InotifyEvent} {rest : List InotifyEvent}
      {exit : Exit} (before : Traces world start log program)
      (queue : unhandled log = some (ev :: rest))
      (waits : ev.kind = .movedFrom → rest = [] → findWatch program.cache ev.wd.toInt = none ∨
        ∃ earlier, earlier ≠ [] ∧ log = earlier ++ [.read .eintr])
      (exits : Exits opts world program ev rest.head? exit) :
    Ends opts world start log exit

/-- What is true of a call. -/
structure CallCorrect (opts : Options) (world : World) (start : Program) (log : List LogEntry)
    (ending : Ending) : Prop where
  safe : SafeLog log
  /-- Each event that is handled has done to the variables of the program what it should. -/
  traced : ∃ after, Traces world start log after ∧
    ∀ program, ending = .returned program → program = after
  /-- A call that returns has handled all events, unless the cache has been built anew. -/
  complete : ∀ program, ending = .returned program → unhandled log = some [] ∨
    ∃ before handling, log = before ++ [.event handling] ∧ handling.reinitialized = true
  /-- A call that is the end of the program has a reason for it. -/
  exits : ∀ exit, ending = .exited exit → Ends opts world start log exit
  /-- No slot is used that has not been looked up. -/
  defined : ending ≠ .exited .undefined

/-- The events left after one more entry. -/
theorem unhandled_append {log : List LogEntry} {queue : List InotifyEvent}
    (before : unhandled log = some queue) (entry : LogEntry) :
    unhandled (log ++ [entry]) = replay queue entry := by
  rw [unhandled, List.foldlM_append, ← unhandled, before]
  simp

/-- A log that is split in front of an entry is split before its last entry, or at it. -/
theorem split_append {α : Type} {log before after : List α} {last entry : α}
    (split_ : log ++ [last] = before ++ entry :: after) :
    (after = [] ∧ before = log ∧ entry = last) ∨
      ∃ others, after = others ++ [last] ∧ log = before ++ entry :: others := by
  -- The entry is the last one, or it is one of those before.
  rcases List.eq_nil_or_concat after with rfl | ⟨others, other, rfl⟩
  · obtain ⟨same, last_⟩ := List.append_inj' split_ rfl
    exact .inl ⟨rfl, same.symm, (List.cons.inj last_).1.symm⟩
  · have moved : log ++ [last] = (before ++ entry :: others) ++ [other] := by
      rw [split_]
      simp
    obtain ⟨same, last_⟩ := List.append_inj' moved rfl
    obtain rfl := (List.cons.inj last_).1
    exact .inr ⟨others, by simp, same⟩

/-- Nothing has gone wrong before the first read. -/
theorem safeLog_nil : SafeLog [] := by
  -- Nothing stands in the log, so nothing is asked of it.
  constructor
  case inOrder => rfl
  case events => exact fun before handling after split_ => by simp at split_
  case reinitialized => exact fun before handling after split_ => by simp at split_
  case secondary => exact fun before first second after split_ => by simp at split_

/-- A read after an event, or right after the first read, keeps the log right. -/
theorem SafeLog.read {log : List LogEntry} (safe : SafeLog log)
    (steady : ∀ handling, .event handling ∈ log → handling.reinitialized = false)
    (fresh : log.length ≤ 1 ∨ ∃ earlier handling, log = earlier ++ [.event handling])
    (result : ReadResult) : SafeLog (log ++ [.read result]) := by
  obtain ⟨queue, left⟩ := Option.isSome_iff_exists.mp safe.inOrder
  constructor
  case inOrder =>
    rw [unhandled_append left]
    cases result <;> rfl
  case events =>
    intro before handling after split_
    rcases split_append split_ with ⟨_, _, same⟩ | ⟨others, _, inside⟩
    · cases same
    · exact safe.events before handling others inside
  case reinitialized =>
    intro before handling after split_ again
    rcases split_append split_ with ⟨_, _, same⟩ | ⟨others, _, inside⟩
    · cases same
    · have mem : .event handling ∈ log := by rw [inside]; simp
      rw [steady handling mem] at again
      cases again
  -- Only a primary read or a retry comes straight after another read.
  case secondary =>
    intro before first second after split_
    have split__ : log ++ [.read result] = (before ++ [.read first]) ++ .read second :: after := by
      rw [split_]
      simp
    rcases split_append split__ with ⟨_, same, _⟩ | ⟨others, _, inside⟩
    · rcases fresh with short | ⟨earlier, handling, last⟩
      · rw [← same, List.length_append, List.length_singleton] at short
        exact List.length_eq_zero_iff.mp (by omega)
      · rw [← same] at last
        have ends := (List.append_inj' last rfl).2
        cases ends
    · exact safe.secondary before first second others (by rw [inside]; simp)

/-- The log is right after the first read. -/
theorem safeLog_read (result : ReadResult) : SafeLog [.read result] :=
  safeLog_nil.read nofun (.inl (Nat.zero_le _)) result

/-- The right handling of the next event keeps the log right. -/
theorem SafeLog.event {log : List LogEntry} (safe : SafeLog log)
    (steady : ∀ handling, .event handling ∈ log → handling.reinitialized = false)
    {handling : Handling} {rest : List InotifyEvent}
    (next : unhandled log = some (handling.event :: rest))
    (head : ∀ partner, handling.partner = some partner → rest.head? = some partner)
    (right : handling.Right log) :
    SafeLog (log ++ [.event handling]) := by
  constructor
  -- The event was the first that is unhandled, so its replay takes it and its partner.
  case inOrder =>
    rw [unhandled_append next, replay, if_pos rfl]
    cases found : handling.partner with
    | none => rfl
    | some other => simp [head other found]
  case events =>
    intro before other after split_
    rcases split_append split_ with ⟨_, rfl, same⟩ | ⟨others, _, inside⟩
    · cases same
      exact right
    · exact safe.events before other others inside
  case reinitialized =>
    intro before other after split_ again
    rcases split_append split_ with ⟨nothing, _, _⟩ | ⟨others, _, inside⟩
    · exact nothing
    · have mem : .event other ∈ log := by rw [inside]; simp
      rw [steady other mem] at again
      cases again
  case secondary =>
    intro before first second after split_
    have split__ : log ++ [.event handling] =
        (before ++ [.read first]) ++ .read second :: after := by
      rw [split_]
      simp
    rcases split_append split__ with ⟨_, _, same⟩ | ⟨others, _, inside⟩
    · cases same
    · exact safe.secondary before first second others (by rw [inside]; simp)

end SysProg.Inotify
