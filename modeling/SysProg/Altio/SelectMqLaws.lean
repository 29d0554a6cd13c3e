import Mathlib.Data.List.TakeWhile
import SysProg.Altio.SelectMq

/-! Every message reaches the terminal once and as it is, unless one is empty or is cut short. -/

namespace SysProg.Altio

variable {msqids : Finset Int32} {system next : SelectMq}

/-- The header has the size that the parent reads. -/
@[simp] theorem length_header (pmsg : Pbuf) : pmsg.header.length = offsetofMtext := by
  -- Two words and a double word.
  simp only [Pbuf.header, List.length_append, Memory.length_bytesOf, Memory.length_bytesOfLong,
    offsetofMtext]

/-- A length that fits is read back as it is. -/
theorem sizeT_ofNat {length : Nat} (fits : length ≤ maxMtext) :
    sizeT (Int32.ofNat length) = length := by
  -- The length is far from where an `int` turns negative.
  have small : length < 2 ^ 31 := fits.trans_lt (by decide)
  rw [sizeT, Int32.toInt_ofNat_of_lt small]
  omega

/-- What is known of a structure from its header in memory. -/
theorem header_of_holds {memory : Memory} {pmsg : Pbuf} (holds : memory.Holds 0 pmsg.header) :
    (memory.word 0).toInt32 = pmsg.msqid ∧ (memory.word 4).toInt32 = pmsg.len ∧
      (memory.long 8).toInt64 = pmsg.mtype := by
  -- The fields lie one after the other, and each is read where it lies.
  obtain ⟨msqid, others⟩ := Memory.holds_append.mp holds
  obtain ⟨len, mtype⟩ := Memory.holds_append.mp others
  simp only [Memory.length_bytesOf, Nat.zero_add] at len mtype
  rw [Memory.word_of_holds msqid, Memory.word_of_holds len, Memory.long_of_holds mtype]
  exact ⟨Int32.toInt32_toUInt32 _, Int32.toInt32_toUInt32 _, Int64.toInt64_toUInt64 _⟩

/-- The text of a message, which a null byte may end. -/
def Message.text (message : Message) : List UInt8 :=
  if message.mtext.getLast? = some 0 then message.mtext.dropLast else message.mtext

/-- What a line that shows the whole message says. -/
def Message.shown (message : Message) (msqid : Int32) : Displayed where
  msqid := msqid
  mtype := message.mtype
  length := Int32.ofNat message.mtext.length
  mtext := message.text

/-- A message that is not empty, and has no bytes behind a null byte. -/
def Message.Plain (message : Message) : Prop :=
  message.mtext ≠ [] ∧ 0 ∉ message.mtext.dropLast

instance (message : Message) : Decidable message.Plain :=
  inferInstanceAs (Decidable (_ ∧ _))

/-- The line that is printed for a plain message shows the whole of it. -/
theorem Message.Plain.printed {message : Message} (plain : message.Plain) (msqid : Int32) :
    (message.pbuf msqid).printed = message.shown msqid := by
  -- A null byte can only be the last one, and is then the end of the text.
  have whole : message.mtext.takeWhile (· ≠ 0) = message.text := by
    obtain ⟨some_, none_⟩ := plain
    obtain ⟨front, last, same⟩ := (List.eq_nil_or_concat' message.mtext).resolve_left some_
    have clean : ∀ byte ∈ front, decide (byte ≠ 0) = true := by
      intro byte mem
      rw [decide_eq_true_eq]
      rintro rfl
      rw [same, List.dropLast_concat] at none_
      exact none_ mem
    rw [Message.text, same, List.getLast?_append_of_ne_nil _ (List.cons_ne_nil _ _),
      List.takeWhile_append_of_pos clean]
    by_cases zero : last = 0
    · simp [zero]
    · simp [zero]
  rw [Pbuf.printed, Message.shown, Message.pbuf]
  simp only [whole]

/-- Where the line shows the text of a message without a null byte, the message is plain. -/
theorem Message.plain_of_shown {message : Message} {msqid : Int32}
    (long : (message.shown msqid).length ≠ 0) (clean : 0 ∉ (message.shown msqid).mtext) :
    message.Plain := by
  refine ⟨fun empty => long ?_, fun mem => clean ?_⟩
  · show Int32.ofNat message.mtext.length = 0
    rw [empty]
    rfl
  -- All bytes but the last one belong to the text.
  · show 0 ∈ message.text
    rw [Message.text]
    split
    · exact mem
    · exact List.mem_of_mem_dropLast mem

/-- A message of one of the queues, made ready for the pipe, which is not empty. -/
def Pbuf.Sound (msqids : Finset Int32) (pmsg : Pbuf) : Prop :=
  pmsg.msqid ∈ msqids ∧ pmsg.mtext ≠ [] ∧ ∃ message : Message, pmsg = message.pbuf pmsg.msqid

/-- Both parts of a message in memory are read back as they are. -/
theorem pbufAt_store {memory : Memory} {pmsg : Pbuf} (sound : pmsg.Sound msqids)
    (holds : memory.Holds 0 pmsg.header) :
    pbufAt (memory.store offsetofMtext pmsg.mtext) = pmsg := by
  obtain ⟨-, -, message, same⟩ := sound
  -- The body lies behind the header, which stays as it is.
  have kept : (memory.store offsetofMtext pmsg.mtext).Holds 0 pmsg.header :=
    Memory.holds_store_before holds (by simp)
  obtain ⟨msqid, len, mtype⟩ := header_of_holds kept
  have size : sizeT pmsg.len = pmsg.mtext.length := by
    rw [same]
    exact sizeT_ofNat message.fits
  unfold pbufAt
  rw [msqid, len, mtype, size, Memory.load_of_holds (Memory.holds_store _ _ _)]

/-- The records that are on their way through the pipe, by the place of the parent. -/
def SelectMq.Framed (system : SelectMq) (records : List Pbuf) : Prop :=
  match system.parent with
  | .select | .readTerminal false => system.pipe = records.flatMap Pbuf.bytes
  | .readTerminal true | .readHeader =>
    records ≠ [] ∧ system.pipe = records.flatMap Pbuf.bytes
  | .readBody pmsg => ∃ current rest, records = current :: rest ∧
    pmsg.Holds 0 current.header ∧ system.pipe = current.mtext ++ rest.flatMap Pbuf.bytes
  | .fatal => False

/-- The messages of a queue on their way, in order: in the pipe, at the child, on the queue. -/
def SelectMq.onTheWay (system : SelectMq) (records : List Pbuf) (msqid : Int32) : List Pbuf :=
  records.filter (·.msqid = msqid) ++
    (((system.children msqid).toList ++ system.queues msqid).map (·.pbuf msqid))

/-- What holds as long as all messages are plain. -/
structure SelectMq.Good (msqids : Finset Int32) (system : SelectMq) (records : List Pbuf) :
    Prop where
  framed : system.Framed records
  sound : ∀ pmsg ∈ records, pmsg.Sound msqids
  own : ∀ pmsg ∈ system.displayed, pmsg.msqid ∈ msqids
  plain : ∀ msqid ∈ msqids, ∀ message ∈ (system.children msqid).toList ++ system.queues msqid,
    message.Plain
  /-- What has been sent to a queue has been displayed or is on its way, in order. -/
  kept : ∀ msqid ∈ msqids, (system.sent msqid).map (·.shown msqid) =
    system.displayed.filter (·.msqid = msqid) ++ (system.onTheWay records msqid).map Pbuf.printed
  /-- Only queues that are monitored have children. -/
  monitored : ∀ msqid, system.children msqid ≠ none → msqid ∈ msqids

/-- A message that is sent is behind all others of its queue. -/
theorem SelectMq.Good.send {records : List Pbuf} (good : system.Good msqids records)
    {msqid : Int32} {message : Message} (plain : message.Plain) :
    SelectMq.Good msqids { system with
      queues := Function.update system.queues msqid (system.queues msqid ++ [message])
      sent := Function.update system.sent msqid (system.sent msqid ++ [message]) } records := by
  refine ⟨good.framed, good.sound, good.own, fun other known sent mem => ?_, fun other known => ?_,
    good.monitored⟩
  -- The new message is plain, and the others are as they were.
  · by_cases same : other = msqid
    · subst same
      simp only [Function.update_self, ← List.append_assoc] at mem
      obtain old | new := List.mem_append.mp mem
      · exact good.plain other known sent old
      · exact List.mem_singleton.mp new ▸ plain
    · simp only [Function.update_of_ne same] at mem
      exact good.plain other known sent mem
  -- What has been sent grows at the end, and so does what is on its way.
  · have kept := good.kept other known
    unfold SelectMq.onTheWay at kept ⊢
    by_cases same : other = msqid
    · subst same
      simp only [Function.update_self, List.map_append, kept, List.append_assoc, List.map_cons,
        List.map_nil, plain.printed]
    · simp only [Function.update_of_ne same]
      exact kept

/-- A message that a child receives stays in its place among those of its queue. -/
theorem SelectMq.Good.msgrcv {records : List Pbuf} (good : system.Good msqids records)
    {msqid : Int32} {message : Message} {rest : List Message} (known : msqid ∈ msqids)
    (free : system.children msqid = none) (queued : system.queues msqid = message :: rest) :
    SelectMq.Good msqids { system with
      queues := Function.update system.queues msqid rest
      children := Function.update system.children msqid (some message) } records := by
  -- For every queue the messages at the child and behind it are the same as before.
  have same : ∀ other, (Function.update system.children msqid (some message) other).toList ++
      Function.update system.queues msqid rest other =
        (system.children other).toList ++ system.queues other := by
    intro other
    by_cases here : other = msqid
    · subst here
      simp [free, queued]
    · simp only [Function.update_of_ne here]
  refine ⟨good.framed, good.sound, good.own, fun other mem => ?_, fun other mem => ?_,
    fun other busy => ?_⟩
  · simp only [same]
    exact good.plain other mem
  · simp only [SelectMq.onTheWay, same]
    exact good.kept other mem
  -- A child that has been given a message belongs to a queue that is monitored.
  · by_cases here : other = msqid
    · exact here ▸ known
    · simp only [Function.update_of_ne here] at busy
      exact good.monitored other busy

/-- A record that is written is behind all others in the pipe, wherever the parent stands. -/
theorem SelectMq.Framed.write {records : List Pbuf} (framed : system.Framed records)
    (pmsg : Pbuf) (children : Int32 → Option Message) :
    SelectMq.Framed { system with pipe := system.pipe ++ pmsg.bytes, children }
      (records ++ [pmsg]) := by
  -- The record is whole, so the pipe is still made of whole records.
  have bytes : ∀ written : List Pbuf, (written ++ [pmsg]).flatMap Pbuf.bytes =
      written.flatMap Pbuf.bytes ++ pmsg.bytes := by
    intro written
    rw [List.flatMap_append, List.flatMap_singleton]
  unfold SelectMq.Framed at framed ⊢
  dsimp only
  split at framed
  next => rw [framed, bytes]
  next => rw [framed, bytes]
  next => exact ⟨by simp, by rw [framed.2, bytes]⟩
  next => exact ⟨by simp, by rw [framed.2, bytes]⟩
  next =>
    -- What is left of the record that is being read stays in front.
    obtain ⟨current, rest, rfl, holds, left⟩ := framed
    exact ⟨current, rest ++ [pmsg], rfl, holds, by rw [left, bytes, List.append_assoc]⟩
  next => exact framed.elim

/-- A message that a child writes stays in its place among those of its queue. -/
theorem SelectMq.Good.write {records : List Pbuf} (good : system.Good msqids records)
    {msqid : Int32} {message : Message} (busy : system.children msqid = some message) :
    SelectMq.Good msqids { system with
      pipe := system.pipe ++ (message.pbuf msqid).bytes
      children := Function.update system.children msqid none }
      (records ++ [message.pbuf msqid]) := by
  -- Only a child of a queue that is monitored can hold a message.
  have known : msqid ∈ msqids := good.monitored msqid (by simp [busy])
  have plain : message.Plain := good.plain msqid known message (by simp [busy])
  refine ⟨good.framed.write _ _, fun pmsg mem => ?_, good.own, fun other mem sent there => ?_,
    fun other mem => ?_, fun other holding => ?_⟩
  · obtain old | new := List.mem_append.mp mem
    · exact good.sound pmsg old
    · obtain rfl := List.mem_singleton.mp new
      exact ⟨known, plain.1, message, rfl⟩
  · -- The child has one message less than before, or the same.
    refine good.plain other mem sent ?_
    by_cases here : other = msqid
    · subst here
      simp only [Function.update_self, Option.toList_none, List.nil_append] at there
      exact List.mem_append_right _ there
    · simpa only [Function.update_of_ne here] using there
  · rw [good.kept other mem]
    congr 1
    unfold SelectMq.onTheWay
    by_cases here : other = msqid
    · -- The record leaves the child and is the last of its queue in the pipe.
      subst here
      simp [busy, Message.pbuf]
    · have elsewhere : (message.pbuf msqid).msqid ≠ other := fun same => here same.symm
      simp [Function.update_of_ne here, elsewhere]
  -- The other children keep what they hold.
  · by_cases here : other = msqid
    · exact here ▸ known
    · simp only [Function.update_of_ne here] at holding
      exact good.monitored other holding

/-- The parent goes to a place at which it takes the same records for granted. -/
theorem SelectMq.Good.move {records : List Pbuf} (good : system.Good msqids records)
    {parent : ParentPc} (framed : SelectMq.Framed { system with parent } records) :
    SelectMq.Good msqids { system with parent } records :=
  ⟨framed, good.sound, good.own, good.plain, good.kept, good.monitored⟩

/-- The parent reads the header of the record that is the first in the pipe. -/
theorem SelectMq.Good.readHeader {records : List Pbuf} (good : system.Good msqids records)
    (at_ : system.parent = .readHeader) (pmsg : Memory) :
    SelectMq.Good msqids { system with
      pipe := system.pipe.drop offsetofMtext
      parent := .readBody (pmsg.store 0 (system.pipe.take offsetofMtext)) } records := by
  have framed := good.framed
  unfold SelectMq.Framed at framed
  rw [at_] at framed
  obtain ⟨some_, bytes⟩ := framed
  obtain ⟨current, rest, rfl⟩ := List.exists_cons_of_ne_nil some_
  -- The first record is in front of all others, its header first.
  have split : system.pipe = current.header ++ (current.mtext ++ rest.flatMap Pbuf.bytes) := by
    rw [bytes, List.flatMap_cons, Pbuf.bytes, List.append_assoc]
  have header : system.pipe.take offsetofMtext = current.header := by
    rw [split, ← length_header current, List.take_left]
  have left : system.pipe.drop offsetofMtext = current.mtext ++ rest.flatMap Pbuf.bytes := by
    rw [split, ← length_header current, List.drop_left]
  -- What is left of the record is its body, which is what the parent waits for.
  refine ⟨?_, good.sound, good.own, good.plain, good.kept, good.monitored⟩
  exact ⟨current, rest, rfl, by rw [header]; exact Memory.holds_store _ _ _, left⟩

/-- The parent reads the body that belongs to the header, and displays the message. -/
theorem SelectMq.Good.readBody {records : List Pbuf} (good : system.Good msqids records)
    {pmsg : Memory} (at_ : system.parent = .readBody pmsg) :
    sizeT (pmsg.word 4).toInt32 ≠ 0 ∧ system.pipe ≠ [] ∧ ∃ rest,
      SelectMq.Good msqids { system with
        pipe := system.pipe.drop (sizeT (pmsg.word 4).toInt32)
        parent := .select
        displayed := system.displayed ++
          [(pbufAt (pmsg.store offsetofMtext
            (system.pipe.take (sizeT (pmsg.word 4).toInt32)))).printed] }
        rest := by
  have framed := good.framed
  unfold SelectMq.Framed at framed
  rw [at_] at framed
  obtain ⟨current, rest, rfl, holds, split⟩ := framed
  -- The header that has been read says how long the body is.
  have sound := good.sound current List.mem_cons_self
  obtain ⟨known, nonempty, message, same⟩ := id sound
  have count : sizeT (pmsg.word 4).toInt32 = current.mtext.length := by
    rw [(header_of_holds holds).2.1, same]
    exact sizeT_ofNat message.fits
  rw [count, split, List.take_left, List.drop_left, pbufAt_store sound holds]
  refine ⟨by simpa using nonempty, by simp [nonempty], rest, rfl,
    fun other mem => good.sound other (List.mem_cons_of_mem _ mem), fun other mem => ?_,
    good.plain, fun msqid mem => ?_, good.monitored⟩
  -- The message is from a queue that is monitored, like all others before it.
  · obtain old | new := List.mem_append.mp mem
    · exact good.own other old
    · exact List.mem_singleton.mp new ▸ known
  · -- The record was the first on its way, and is the last that has been displayed.
    have first : ((current :: rest).filter (·.msqid = msqid)).map Pbuf.printed =
        [current.printed].filter (·.msqid = msqid) ++
          (rest.filter (·.msqid = msqid)).map Pbuf.printed := by
      by_cases here : current.msqid = msqid
      · simp [here, Pbuf.printed]
      · simp [here, Pbuf.printed]
    rw [good.kept msqid mem, List.filter_append, List.append_assoc]
    congr 1
    simp only [SelectMq.onTheWay, List.map_append, first, List.append_assoc]

/-- Every step keeps the system good, as long as the messages that are sent are plain. -/
theorem SelectMq.Good.step {records : List Pbuf} {action : Action}
    (good : system.Good msqids records)
    (plain : ∀ msqid message, action = .send msqid message → message.Plain)
    (stepped : selectStep msqids system action = some next) :
    ∃ records, next.Good msqids records := by
  -- One case for each kind of action; the parent's steps are told apart by where it stands.
  unfold selectStep at stepped
  split at stepped
  next _ msqid message =>
    split at stepped
    · obtain rfl := Option.some.inj stepped
      exact ⟨records, good.send (plain msqid message rfl)⟩
    · exact nomatch stepped
  next _ msqid =>
    split at stepped
    next monitored =>
      split at stepped
      · exact nomatch stepped
      next message rest queued =>
        obtain rfl := Option.some.inj stepped
        exact ⟨records, good.msgrcv monitored.1 monitored.2 queued⟩
    · exact nomatch stepped
  next _ msqid =>
    split at stepped
    · exact nomatch stepped
    next message busy =>
      split at stepped
      · obtain rfl := Option.some.inj stepped
        exact ⟨_, good.write busy⟩
      · exact nomatch stepped
  next terminalReady at_ =>
    have framed := good.framed
    unfold SelectMq.Framed at framed
    rw [at_] at framed
    -- What is in the pipe are records, so there is one where there is a byte.
    have ready : system.pipe ≠ [] → records ≠ [] := by
      intro filled none
      exact filled (by rw [framed, none, List.flatMap_nil])
    split at stepped
    · obtain rfl := Option.some.inj stepped
      -- The parent goes on to the pipe if the pipe is ready, and to the terminal otherwise.
      refine ⟨records, good.move ?_⟩
      by_cases filled : system.pipe ≠ []
      · simp only [decide_eq_true filled]
        exact ⟨ready filled, framed⟩
      · simp only [decide_eq_false filled]
        exact framed
    split at stepped
    -- Only the pipe was ready.
    next filled =>
      obtain rfl := Option.some.inj stepped
      exact ⟨records, good.move ⟨ready filled, framed⟩⟩
    · exact nomatch stepped
  next pipeReady at_ =>
    have framed := good.framed
    unfold SelectMq.Framed at framed
    rw [at_] at framed
    -- The terminal has been served, and the pipe is next if it was ready, too.
    cases pipeReady with
    | true =>
      obtain rfl := Option.some.inj stepped
      exact ⟨records, good.move framed⟩
    | false =>
      obtain rfl := Option.some.inj stepped
      exact ⟨records, good.move framed⟩
  next pmsg at_ =>
    split at stepped
    · exact nomatch stepped
    · obtain rfl := Option.some.inj stepped
      exact ⟨records, good.readHeader at_ pmsg⟩
  -- The header belongs to a message that has a body, so the second read returns bytes.
  next pmsg at_ =>
    obtain ⟨counted, filled, rest, read⟩ := good.readBody at_
    dsimp only at stepped
    rw [if_neg counted, if_neg filled, Option.some.injEq] at stepped
    exact stepped ▸ ⟨rest, read⟩
  next => exact nomatch stepped

/-- Everything that has been sent has been displayed. -/
def SelectMq.Done (msqids : Finset Int32) (system : SelectMq) : Prop :=
  ∀ msqid ∈ msqids, (system.sent msqid).map (·.shown msqid) =
    system.displayed.filter (·.msqid = msqid)

/-- How much there is to do for the messages of a queue that are not in the pipe yet. -/
def SelectMq.load (system : SelectMq) (msqid : Int32) : Nat :=
  1000 * (system.children msqid).toList.length + 2000 * (system.queues msqid).length

/-- How much there is left to do, where a byte in the pipe counts two. -/
def SelectMq.remaining (msqids : Finset Int32) (system : SelectMq) : Nat :=
  2 * system.pipe.length +
    (match system.parent with
      | .readTerminal _ => 2
      | .select => 1
      | _ => 0) +
    ∑ msqid ∈ msqids, system.load msqid

/-- A sum gets smaller by what one of its members does. -/
theorem sum_add_le {members : Finset Int32} (before after : Int32 → Nat) {member : Int32}
    {less : Nat} (mem : member ∈ members) (others : ∀ other, other ≠ member →
      after other = before other) (here : after member + less ≤ before member) :
    ∑ other ∈ members, after other + less ≤ ∑ other ∈ members, before other := by
  -- The rest of the sum is the same.
  have rest : ∑ other ∈ members.erase member, after other =
      ∑ other ∈ members.erase member, before other :=
    Finset.sum_congr rfl fun other there => others other (Finset.ne_of_mem_erase there)
  rw [← Finset.add_sum_erase members after mem, ← Finset.add_sum_erase members before mem, rest]
  omega

/-- A record takes no more bytes than its structure has. -/
theorem length_bytes_le (message : Message) (msqid : Int32) :
    (message.pbuf msqid).bytes.length ≤ 416 := by
  -- A message has 400 bytes at most, behind a header of 16.
  have fits := message.fits
  rw [Pbuf.bytes, List.length_append, length_header, offsetofMtext]
  show 16 + message.mtext.length ≤ 416
  have bound : maxMtext = 400 := rfl
  omega

/-- A step of the program itself, when nothing else is going on. -/
def Action.own : Action → Bool
  | .send _ _ | .select true => false
  | _ => true

/-- Every step of the program itself leaves less to do. -/
theorem SelectMq.Good.lowered {records : List Pbuf} {action : Action}
    (good : system.Good msqids records) (own : action.own = true)
    (stepped : selectStep msqids system action = some next) :
    next.remaining msqids < system.remaining msqids := by
  unfold selectStep at stepped
  -- Sending is not the program's own.
  split at stepped
  next => exact nomatch own
  next _ msqid =>
    split at stepped
    next monitored =>
      split at stepped
      · exact nomatch stepped
      next message rest queued =>
        -- A message that has been received counts less than one on the queue.
        obtain rfl := Option.some.inj stepped
        have less : ∑ other ∈ msqids, SelectMq.load { system with
            queues := Function.update system.queues msqid rest
            children := Function.update system.children msqid (some message) } other + 1000 ≤
              ∑ other ∈ msqids, system.load other := by
          refine sum_add_le system.load _ monitored.1 (fun other elsewhere => ?_) ?_
          · simp [SelectMq.load, Function.update_of_ne elsewhere]
          · simp [SelectMq.load, monitored.2, queued]
            omega
        simp only [SelectMq.remaining]
        omega
    · exact nomatch stepped
  next _ msqid =>
    split at stepped
    · exact nomatch stepped
    next message busy =>
      split at stepped
      next =>
        -- A record has at most 416 bytes, which count less than the message at the child.
        obtain rfl := Option.some.inj stepped
        have known : msqid ∈ msqids := good.monitored msqid (by simp [busy])
        have small := length_bytes_le message msqid
        have less : ∑ other ∈ msqids, SelectMq.load { system with
            pipe := system.pipe ++ (message.pbuf msqid).bytes
            children := Function.update system.children msqid none } other + 1000 ≤
              ∑ other ∈ msqids, system.load other := by
          refine sum_add_le system.load _ known (fun other elsewhere => ?_) ?_
          · simp [SelectMq.load, Function.update_of_ne elsewhere]
          · simp [SelectMq.load, busy]
            omega
        simp only [SelectMq.remaining, List.length_append]
        omega
      · exact nomatch stepped
  next terminalReady at_ =>
    cases terminalReady with
    | true => exact nomatch own
    | false =>
      -- The parent has left `select`, which counted one, and has at most gained one for the
      -- terminal.
      split at stepped
      next never => exact nomatch never
      split at stepped
      · obtain rfl := Option.some.inj stepped
        simp only [SelectMq.remaining, at_, SelectMq.load]
        omega
      · exact nomatch stepped
  next pipeReady at_ =>
    -- A read of the terminal returns to `select`, which counts less.
    split at stepped <;> obtain rfl := Option.some.inj stepped <;>
      simp only [SelectMq.remaining, at_, SelectMq.load] <;> omega
  -- At least one byte has been read, which counts two.
  next pmsg at_ =>
    split at stepped
    · exact nomatch stepped
    next filled =>
      obtain rfl := Option.some.inj stepped
      have some_ := List.length_pos_iff.mpr filled
      simp only [SelectMq.remaining, at_, List.length_drop, SelectMq.load, offsetofMtext]
      omega
  -- The header belongs to a body of at least one byte.
  next pmsg at_ =>
    obtain ⟨counted, filled, -⟩ := good.readBody at_
    dsimp only at stepped
    rw [if_neg counted, if_neg filled, Option.some.injEq] at stepped
    subst stepped
    have some_ := List.length_pos_iff.mpr filled
    have more := Nat.pos_of_ne_zero counted
    simp only [SelectMq.remaining, at_, List.length_drop, SelectMq.load]
    omega
  next => exact nomatch stepped

/-- Where nothing is in the pipe, some message is still at a child or on a queue. -/
theorem SelectMq.Good.waits {records : List Pbuf} (good : system.Good msqids records)
    (open_ : ¬ system.Done msqids) (at_ : system.parent = .select) (empty : system.pipe = []) :
    ∃ msqid ∈ msqids, (system.children msqid).toList ++ system.queues msqid ≠ [] := by
  have framed := good.framed
  unfold SelectMq.Framed at framed
  rw [at_] at framed
  -- Were there a record, there would be bytes in the pipe.
  have none : records = [] := by
    cases records with
    | nil => rfl
    | cons first rest =>
      rw [empty, List.flatMap_cons, Pbuf.bytes, Pbuf.header] at framed
      simp [Memory.bytesOf] at framed
  -- Were there no message waiting, all would have been displayed.
  by_contra nobody
  refine open_ fun msqid known => ?_
  have still : (system.children msqid).toList ++ system.queues msqid = [] := by
    by_contra waits
    exact nobody ⟨msqid, known, waits⟩
  rw [good.kept msqid known, SelectMq.onTheWay, still, none]
  simp

/-- As long as something is left to be displayed, the program can take a step. -/
theorem SelectMq.Good.enabled {records : List Pbuf} (good : system.Good msqids records)
    (open_ : ¬ system.Done msqids) :
    ∃ action next, action.own = true ∧ selectStep msqids system action = some next := by
  have framed := good.framed
  unfold SelectMq.Framed at framed
  -- The parent never stands still: it reads what is there, or `select` waits for a child.
  cases at_ : system.parent with
  | fatal =>
    rw [at_] at framed
    exact framed.elim
  | readBody pmsg =>
    obtain ⟨counted, filled, -⟩ := good.readBody at_
    refine ⟨.readBody, ?_⟩
    simp only [selectStep, at_, if_neg counted, if_neg filled]
    exact ⟨_, rfl, rfl⟩
  | readHeader =>
    rw [at_] at framed
    -- A record is at least its header, so the pipe is not empty.
    have filled : system.pipe ≠ [] := by
      obtain ⟨first, rest, rfl⟩ := List.exists_cons_of_ne_nil framed.1
      rw [framed.2, List.flatMap_cons, Pbuf.bytes, Pbuf.header]
      simp [Memory.bytesOf]
    refine ⟨.readHeader fun _ => 0, ?_⟩
    simp only [selectStep, at_, if_neg filled]
    exact ⟨_, rfl, rfl⟩
  | readTerminal pipeReady =>
    refine ⟨.readTerminal, ?_⟩
    simp only [selectStep, at_]
    cases pipeReady <;> exact ⟨_, rfl, rfl⟩
  | select =>
    by_cases filled : system.pipe ≠ []
    · refine ⟨.select false, ?_⟩
      simp only [selectStep, at_, if_pos filled, Bool.false_eq_true, if_false]
      exact ⟨_, rfl, rfl⟩
    -- With an empty pipe the messages wait at a child or on a queue.
    have empty : system.pipe = [] := not_not.mp filled
    obtain ⟨msqid, known, waits⟩ := good.waits open_ at_ empty
    cases busy : system.children msqid with
    | some message =>
      -- The pipe is empty, so there is room for the record.
      have small := length_bytes_le message msqid
      have room : system.pipe.length + (message.pbuf msqid).bytes.length ≤ pipeCapacity := by
        rw [empty, List.length_nil, pipeCapacity]
        omega
      refine ⟨.write msqid, ?_⟩
      simp only [selectStep, busy, if_pos room]
      exact ⟨_, rfl, rfl⟩
    | none =>
      rw [busy, Option.toList_none, List.nil_append] at waits
      obtain ⟨message, rest, queued⟩ := List.exists_cons_of_ne_nil waits
      refine ⟨.msgrcv msqid, ?_⟩
      simp only [selectStep, if_pos (And.intro known busy), queued]
      exact ⟨_, rfl, rfl⟩

/-- The parent displays every message once, in order and as it is, and goes on. -/
structure SelectMq.Faithful (msqids : Finset Int32) (system : SelectMq) : Prop where
  survives : system.parent ≠ .fatal
  /-- What has been displayed of a queue are its first messages as they were sent, each once. -/
  inOrder : ∀ msqid ∈ msqids, system.displayed.filter (·.msqid = msqid) <+:
    (system.sent msqid).map (·.shown msqid)
  /-- Nothing else has been displayed. -/
  own : ∀ pmsg ∈ system.displayed, pmsg.msqid ∈ msqids
  /-- However the program goes on by itself, everything will soon have been displayed. -/
  settles : ∀ actions finish, (∀ action ∈ actions, action.own = true) →
    (selectMq msqids).run system actions = some finish →
    actions.length ≤ system.remaining msqids ∧ finish.sent = system.sent ∧
      (finish.Done msqids ∨ ∃ action next, action.own = true ∧
        (selectMq msqids).step finish action = some next)

/-- The program sends nothing itself, and stays good. -/
theorem SelectMq.Good.step_own {records : List Pbuf} {action : Action}
    (good : system.Good msqids records) (own : action.own = true)
    (stepped : selectStep msqids system action = some next) :
    (∃ records, next.Good msqids records) ∧ next.sent = system.sent := by
  -- The steps of the program itself send nothing.
  have plain : ∀ msqid message, action = .send msqid message → message.Plain := by
    intro msqid message same
    rw [same] at own
    exact nomatch own
  refine ⟨good.step plain stepped, ?_⟩
  unfold selectStep at stepped
  split at stepped
  next => exact nomatch own
  all_goals
    (try dsimp only at stepped)
    (try split at stepped) <;> (try split at stepped) <;> cases stepped <;> rfl

/-- A good system is faithful. -/
theorem SelectMq.Good.faithful {records : List Pbuf} (good : system.Good msqids records) :
    system.Faithful msqids := by
  refine ⟨fun fatal => ?_, fun msqid known => ?_, good.own, fun actions finish own ran => ?_⟩
  -- A parent that is dead does not read whole records.
  · have framed := good.framed
    unfold SelectMq.Framed at framed
    rw [fatal] at framed
    exact framed
  -- What is on its way comes behind what has been displayed.
  · rw [good.kept msqid known]
    exact List.prefix_append _ _
  · -- The induction takes the steps of the program one at a time, each of which leaves less to do.
    induction actions generalizing system records with
    -- Nothing has been done yet, so either all is done or a step is possible.
    | nil =>
      obtain rfl := Option.some.inj ran
      refine ⟨Nat.zero_le _, rfl, ?_⟩
      by_cases done : system.Done msqids
      · exact .inl done
      · exact .inr (good.enabled done)
    -- A step of the program keeps the system good, and the rest is shorter.
    | cons action rest ih =>
      obtain ⟨middle, stepped, remaining⟩ := (Machine.run_cons_eq_some _).mp ran
      have mine := own action List.mem_cons_self
      obtain ⟨⟨after, stays⟩, sent⟩ := good.step_own mine stepped
      have less := good.lowered mine stepped
      obtain ⟨bounded, same, ends⟩ :=
        ih stays (fun later mem => own later (List.mem_cons_of_mem _ mem)) remaining
      refine ⟨?_, same.trans sent, ends⟩
      rw [List.length_cons]
      omega

/-- A system that settles can come to the end of what it has to do. -/
theorem SelectMq.Faithful.reaches_done (faithful : system.Faithful msqids) :
    ∃ finish, (selectMq msqids).Reaches system finish ∧ finish.sent = system.sent ∧
      finish.Done msqids := by
  -- Were there no end, there would be runs of any length.
  by_contra never
  have longer : ∀ size, ∃ actions finish, (∀ action ∈ actions, action.own = true) ∧
      (selectMq msqids).run system actions = some finish ∧ actions.length = size := by
    intro size
    induction size with
    | zero => exact ⟨[], system, fun _ mem => absurd mem List.not_mem_nil, rfl, rfl⟩
    | succ size ih =>
      obtain ⟨actions, finish, own, ran, length⟩ := ih
      obtain ⟨-, sent, done | ⟨action, next, mine, stepped⟩⟩ :=
        faithful.settles actions finish own ran
      -- The end would have been reached.
      · exact absurd ⟨finish, ⟨actions, ran⟩, sent, done⟩ never
      · refine ⟨actions ++ [action], next, fun other mem => ?_, ?_, by simp [length]⟩
        · obtain old | new := List.mem_append.mp mem
          · exact own other old
          · exact List.mem_singleton.mp new ▸ mine
        · rw [Machine.run_append, ran, Option.bind_some, Machine.run_cons_eq_some]
          exact ⟨next, stepped, rfl⟩
  obtain ⟨actions, finish, own, ran, length⟩ := longer (system.remaining msqids + 1)
  have bounded := (faithful.settles actions finish own ran).1
  omega

/-- What every line says: the body is not empty, and no null byte is shown. -/
def Displayed.Legible (line : Displayed) : Prop :=
  line.length ≠ 0 ∧ 0 ∉ line.mtext

/-- A step displays nothing, or a line that is legible. -/
theorem displayed_legible {action : Action}
    (stepped : selectStep msqids system action = some next) :
    ∀ line ∈ next.displayed, line ∈ system.displayed ∨ line.Legible := by
  intro line mem
  unfold selectStep at stepped
  split at stepped
  -- Only the parent that reads a body displays anything.
  case h_7 pmsg at_ =>
    dsimp only at stepped
    split at stepped
    · obtain rfl := Option.some.inj stepped
      exact .inl mem
    next counted =>
      split at stepped
      · exact nomatch stepped
      obtain rfl := Option.some.inj stepped
      obtain old | new := List.mem_append.mp mem
      · exact .inl old
      · -- The line has the length that the second read has asked for, and stops at a null byte.
        obtain rfl := List.mem_singleton.mp new
        have sameLen : ∀ body, (pmsg.store offsetofMtext body).word 4 = pmsg.word 4 := by
          intro body
          simp [Memory.word, Memory.store, offsetofMtext]
        refine .inr ⟨fun zero => counted ?_, fun null => ?_⟩
        · have none_ : (pmsg.word 4).toInt32 = 0 := by
            rw [← sameLen (system.pipe.take (sizeT (pmsg.word 4).toInt32))]
            exact zero
          rw [none_]
          rfl
        · have shown := List.mem_takeWhile_imp null
          simp at shown
  -- The other steps leave what is displayed as it is.
  all_goals
    (try split at stepped) <;> (try split at stepped) <;> cases stepped <;> exact .inl mem

/-- Nothing that has been sent is taken back. -/
theorem sent_mono {action : Action} (stepped : selectStep msqids system action = some next)
    (msqid : Int32) : ∀ message ∈ system.sent msqid, message ∈ next.sent msqid := by
  intro message mem
  unfold selectStep at stepped
  split at stepped
  -- Sending adds a message at the end, and all other steps leave what was sent as it is.
  case h_1 _ other new =>
    split at stepped <;> cases stepped
    by_cases here : msqid = other
    · subst here
      simp [mem]
    · simp [Function.update_of_ne here, mem]
  all_goals
    (try dsimp only at stepped)
    (try split at stepped) <;> (try split at stepped) <;> cases stepped <;> exact mem

/-- A message that is not plain has been sent to one of the queues. -/
def SelectMq.SentOther (msqids : Finset Int32) (system : SelectMq) : Prop :=
  ∃ msqid ∈ msqids, ∃ message ∈ system.sent msqid, ¬ message.Plain

/-- A system is good until a message that is not plain has been sent. -/
theorem good_or_sentOther {actions : List Action} {system : SelectMq}
    (ran : (selectMq msqids).run SelectMq.initial actions = some system) :
    system.SentOther msqids ∨ ∃ records, system.Good msqids records := by
  have preserved : ∀ state action next,
      (SelectMq.SentOther msqids state ∨ ∃ records, state.Good msqids records) →
      (selectMq msqids).step state action = some next →
      SelectMq.SentOther msqids next ∨ ∃ records, next.Good msqids records := by
    intro state action next either stepped
    -- Such a message stays sent, and while there is none the system stays good.
    obtain ⟨msqid, known, message, mem, other⟩ | ⟨records, good⟩ := either
    · exact .inl ⟨msqid, known, message, sent_mono stepped msqid message mem, other⟩
    · by_cases plain : ∀ msqid message, action = .send msqid message → message.Plain
      · exact .inr (good.step plain stepped)
      · simp only [not_forall] at plain
        obtain ⟨msqid, message, rfl, other⟩ := plain
        -- The step has sent the message.
        refine .inl ?_
        change selectStep msqids state (.send msqid message) = some next at stepped
        unfold selectStep at stepped
        dsimp only at stepped
        split at stepped <;> cases stepped
        next known => exact ⟨msqid, known, message, by simp, other⟩
  -- At the start nothing is sent, on its way or displayed.
  have initial : SelectMq.initial.Good msqids [] := by
    refine ⟨rfl, ?_, ?_, ?_, fun _ _ => rfl, fun _ busy => absurd rfl busy⟩
    · exact fun _ mem => absurd mem List.not_mem_nil
    · exact fun _ mem => absurd mem List.not_mem_nil
    · exact fun _ _ _ mem => absurd mem List.not_mem_nil
  exact Machine.run_invariant preserved (.inr ⟨[], initial⟩) ran

/--
The parent is faithful exactly when all messages that have been sent are plain.

A message without a body ends the parent, and bytes behind a null byte are not displayed.
-/
theorem selectMq_faithful_iff {actions : List Action} {system : SelectMq}
    (ran : (selectMq msqids).run SelectMq.initial actions = some system) :
    system.Faithful msqids ↔
      ∀ msqid ∈ msqids, ∀ message ∈ system.sent msqid, message.Plain := by
  constructor
  · intro faithful msqid known message mem
    obtain ⟨finish, reaches, sent, done⟩ := faithful.reaches_done
    -- What is displayed in the end is legible, and the message is among it.
    have legible : ∀ line ∈ finish.displayed, line.Legible := by
      have whole : (selectMq msqids).Reaches SelectMq.initial finish :=
        -- The end is reached from the start, too.
        Machine.Reaches.trans ⟨actions, ran⟩ reaches
      have preserved : ∀ state action next,
          (∀ line ∈ SelectMq.displayed state, line.Legible) →
          (selectMq msqids).step state action = some next →
          ∀ line ∈ next.displayed, line.Legible := fun _ _ _ before stepped line shown =>
        (displayed_legible stepped line shown).elim (before line) id
      exact whole.invariant preserved fun _ mem => absurd mem List.not_mem_nil
    have shown : message.shown msqid ∈ finish.displayed.filter (·.msqid = msqid) := by
      rw [← done msqid known, sent]
      exact List.mem_map_of_mem mem
    obtain ⟨long, clean⟩ := legible _ (List.mem_filter.mp shown).1
    exact Message.plain_of_shown long clean
  -- All that was sent is plain, so the system is still good.
  · intro plain
    obtain ⟨msqid, known, message, mem, other⟩ | ⟨records, good⟩ := good_or_sentOther ran
    · exact absurd (plain msqid known message mem) other
    · exact good.faithful

/-- Two messages are sent to two queues, and the parent reads the one and displays the other. -/
def twoMessages : List Action := [
  .send 7 ⟨1, [104, 105], by decide⟩,
  .send 8 ⟨2, [33, 0], by decide⟩,
  .msgrcv 8, .write 8, .msgrcv 7, .select false, .write 7,
  .readHeader fun _ => 255, .readBody, .select true, .readTerminal,
  .readHeader fun _ => 255]

/-- The message of the second queue is displayed, and the other one will be. -/
theorem selectMq_faithful_iff_twoMessages : ∃ system,
    (selectMq {7, 8}).run SelectMq.initial twoMessages = some system ∧
    system.displayed = [⟨8, 2, 2, [33]⟩] ∧ system.Faithful {7, 8} := by
  -- Each child reads one message, and select() finds the second one first.
  obtain ⟨system, ran, displayed, first, second⟩ : ∃ system,
      (selectMq {7, 8}).run SelectMq.initial twoMessages = some system ∧
      system.displayed = [⟨8, 2, 2, [33]⟩] ∧ system.sent 7 = [⟨1, [104, 105], by decide⟩] ∧
      system.sent 8 = [⟨2, [33, 0], by decide⟩] := ⟨_, rfl, by decide, by decide, by decide⟩
  refine ⟨system, ran, displayed, (selectMq_faithful_iff ran).mpr ?_⟩
  intro msqid known message mem
  simp only [Finset.mem_insert, Finset.mem_singleton] at known
  obtain rfl | rfl := known
  · rw [first, List.mem_singleton] at mem
    rw [mem]
    decide
  · rw [second, List.mem_singleton] at mem
    rw [mem]
    decide

/-- A message without a body ends the parent. -/
theorem selectMq_not_faithful : ¬ ∀ msqids actions system,
    (selectMq msqids).run SelectMq.initial actions = some system → system.Faithful msqids := by
  intro faithful
  -- A message without a body makes the second read() return 0.
  obtain ⟨system, ran, fatal⟩ : ∃ system,
      (selectMq {7}).run SelectMq.initial [.send 7 ⟨1, [], by decide⟩, .msgrcv 7, .write 7,
        .select false, .readHeader fun _ => 0, .readBody] = some system ∧
      system.parent = .fatal := ⟨_, rfl, rfl⟩
  exact (faithful _ _ _ ran).survives fatal

end SysProg.Altio
