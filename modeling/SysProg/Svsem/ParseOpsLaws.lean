import SysProg.Svsem.ParseOpsGrammar

/-! When `parseOps` keeps to the grammar of the semaphore operations. -/

namespace SysProg.Svsem

open SysProg.Decimal SysProg.Strings

/-- What an `unsigned short` holds of a number is the number if it is small enough. -/
theorem toUnsignedShort_iff {number : Nat} :
    toUnsignedShort (min number longMax : Nat) = number ↔ number < 2 ^ 16 := by
  unfold toUnsignedShort longMax
  omega

/-- What a `short` holds of a number. -/
theorem toShort_eq (number : Int) :
    toShort number = if number % 65536 < 32768 then number % 65536 else number % 65536 - 65536 := by
  rw [toShort, Int.bmod_def]
  norm_num

/-- What a `short` holds of a number that is read, reversed if there is a minus sign. -/
def narrow (sign : Sign) (value : Nat) : Int :=
  let semOp := toShort (min value longMax : Nat)
  if sign = .minus then toShort (-semOp) else semOp

/-- That is the value with its sign if it is small enough. -/
theorem narrow_iff {sign : Sign} {value : Nat} :
    narrow sign value = sign.apply value ↔ sign.Fits value := by
  cases sign with
  -- The reversed value is narrowed once more, which is what makes room for one more number.
  | minus =>
    simp only [narrow, if_true, Sign.apply, Sign.Fits, toShort_eq, longMax]
    split_ifs <;> omega
  | plus | equals =>
    simp only [narrow, reduceCtorEq, if_false, Sign.apply, Sign.Fits, toShort_eq, longMax]
    split_ifs <;> omega

/-- Nothing is stored where there is no number. -/
theorem parseOp_noNum {text : List UInt8} (noNum : writtenNum text = none) :
    ∃ error, parseOp text = (⟨none, none, none⟩, .error error) := by
  -- The argument has ended, or something else than a digit comes.
  cases text with
  | nil => exact ⟨_, rfl⟩
  | cons first rest =>
    have noDigit : isDigit first = false := by
      cases digit : isDigit first with
      | false => rfl
      | true => simp [writtenNum, digit] at noNum
    exact ⟨.expectedInitialDigit, by simp [parseOp, noDigit]⟩

/-- A number is stored. -/
theorem parseOp_num {text : List UInt8} {number : Nat} (num : writtenNum text = some number) :
    parseOp text =
      let semNum := toUnsignedShort (min number longMax : Nat)
      match text.dropWhile isDigit with
      | [] => (⟨some semNum, none, none⟩, .error .expectedSign)
      | char :: value =>
        match Sign.of char with
        | none => (⟨some semNum, none, none⟩, .error .expectedSign)
        | some sign =>
          match writtenNum value with
          | none => (⟨some semNum, none, none⟩, .error (.expectedDigit char))
          | some number =>
            let semOp := narrow sign number
            if sign = .equals ∧ semOp ≠ 0 then
              (⟨some semNum, some semOp, none⟩, .error .expectedZero)
            else
              let (semFlg, rest) := flagLoop 0 (value.dropWhile isDigit)
              match rest with
              | [] => (⟨some semNum, some semOp, some semFlg⟩, .ok ())
              | flag :: _ =>
                (⟨some semNum, some semOp, some semFlg⟩,
                  if flag = comma then .ok () else .error (.badTrailingCharacter flag)) := by
  obtain ⟨digits, num⟩ := writtenNum_eq_some.mp num
  cases text with
  | nil => exact absurd rfl digits
  | cons first rest =>
    have digit : isDigit first = true := by
      cases digit : isDigit first with
      | true => rfl
      | false => simp [digit] at digits
    simp only [parseOp, digit, Bool.not_true, Bool.false_eq_true, if_false, strtol, num]
    -- What comes next decides which of the errors it is, if any.
    cases behind : (first :: rest).dropWhile isDigit with
    | nil => rfl
    | cons char value =>
      cases found : Sign.of char with
      | none => simp only [if_pos (Sign.of_eq_none.mp found), found]
      | some sign =>
        obtain rfl := Sign.of_eq_some.mp found
        have isSign : ¬ sign.char ∉ [plusSign, minusSign, equalsSign] := by
          rw [← Sign.of_eq_none, found]
          exact Option.some_ne_none sign
        simp only [if_neg isSign, found]
        cases written : writtenNum value with
        | none =>
          have noDigit := takeWhile_isDigit_eq_nil.mp (writtenNum_eq_none.mp written)
          simp only [noDigit, Bool.not_false, if_true]
        | some number =>
          obtain ⟨digits, rfl⟩ := writtenNum_eq_some.mp written
          have digit : value.head?.any Decimal.isDigit = true := by
            rw [← Bool.not_eq_false, ← takeWhile_isDigit_eq_nil]
            exact digits
          have minus : sign.char = minusSign ↔ sign = .minus := by cases sign <;> decide
          have equals : sign.char = equalsSign ↔ sign = .equals := by cases sign <;> decide
          simp only [digit, Bool.not_true, Bool.false_eq_true, if_false, minus, equals, narrow]
          rfl

/-- The text of an operation is parsed up to its flags, unless it has `'='` and no zero. -/
theorem parseOp_op {text : List UInt8} {number value : Nat} {sign : Sign}
    (num : writtenNum text = some number) (op : writtenOp text = some (sign, value)) :
    parseOp text =
      let semNum := toUnsignedShort (min number longMax : Nat)
      if sign = .equals ∧ narrow sign value ≠ 0 then
        (⟨some semNum, some (narrow sign value), none⟩, .error .expectedZero)
      else
        let semFlg := (flagLoop 0 (behindOp text)).1
        match (flagLoop 0 (behindOp text)).2 with
        | [] => (⟨some semNum, some (narrow sign value), some semFlg⟩, .ok ())
        | flag :: _ =>
          (⟨some semNum, some (narrow sign value), some semFlg⟩,
            if flag = comma then .ok () else .error (.badTrailingCharacter flag)) := by
  -- The number and the operation have been read, so the flags come next.
  obtain ⟨-, behind, split, written⟩ := writtenOp_eq_some.mp op
  rw [parseOp_num num, behindOp, split]
  simp only [Sign.of_char, written, List.tail_cons]

/-- Without an operation, no more than the number of a semaphore is stored. -/
theorem parseOp_noOp {text : List UInt8} {number : Nat} (num : writtenNum text = some number)
    (noOp : writtenOp text = none) :
    ∃ error, parseOp text =
      (⟨some (toUnsignedShort (min number longMax : Nat)), none, none⟩, .error error) := by
  -- The sign is missing, or the value behind it.
  rw [parseOp_num num]
  cases split : text.dropWhile isDigit with
  | nil => exact ⟨_, rfl⟩
  | cons char behind =>
    cases found : Sign.of char with
    | none => exact ⟨.expectedSign, by simp only [found]⟩
    | some sign =>
      cases written : writtenNum behind with
      | none => exact ⟨.expectedDigit char, by simp only [found, written]⟩
      | some value =>
        obtain rfl := Sign.of_eq_some.mp found
        have op : writtenOp text = some (sign, value) :=
          writtenOp_eq_some.mpr ⟨by rw [num]; rfl, behind, split, written⟩
        rw [op] at noOp
        exact nomatch noOp

/-- What is stored of a text, in the fields that are numbers. -/
theorem parseOp_stored (text : List UInt8) :
    (parseOp text).1.semNum =
        (writtenNum text).map (fun number => toUnsignedShort (min number longMax : Nat)) ∧
      (parseOp text).1.semOp = (writtenOp text).map fun (sign, value) => narrow sign value := by
  -- No branch behind the test for zero stores another number.
  cases num : writtenNum text with
  | none =>
    obtain ⟨error, parsed⟩ := parseOp_noNum num
    have noOp : writtenOp text = none := by simp [writtenOp, num]
    rw [parsed, noOp]
    exact ⟨rfl, rfl⟩
  | some number =>
    cases op : writtenOp text with
    | none =>
      obtain ⟨error, parsed⟩ := parseOp_noOp num op
      rw [parsed]
      exact ⟨rfl, rfl⟩
    | some written =>
      rw [parseOp_op num op]
      simp only
      split
      · exact ⟨rfl, rfl⟩
      · split <;> exact ⟨rfl, rfl⟩

/-- The numbers are stored as they are written if and only if they fit. -/
theorem holds_iff {text : List UInt8} : (parseOp text).1.Holds text ↔ FitsFields text := by
  -- Both fields are compared with what is written on their own.
  obtain ⟨semNum, semOp⟩ := parseOp_stored text
  rw [Sembuf.Holds, FitsFields, semNum, semOp]
  refine and_congr ?_ ?_
  · cases writtenNum text with
    | none => simp
    | some number => simpa using toUnsignedShort_iff
  · cases writtenOp text with
    | none => simp
    | some written => simpa using narrow_iff

/-- The flags are read up to the first character that is none. -/
theorem flagLoop_eq (semFlg : Nat) (text : List UInt8) :
    ∃ flags : List Flag, text = flags.map Flag.char ++ (flagLoop semFlg text).2 ∧
      (flagLoop semFlg text).1 = flags.foldl (fun flg flag => flg ||| flag.value) semFlg := by
  -- The induction follows the loop.
  fun_induction flagLoop semFlg text with
  | case1 semFlg rest ih =>
    obtain ⟨flags, split, value⟩ := ih
    exact ⟨.nowait :: flags, congrArg (110 :: ·) split, value⟩
  | case2 semFlg rest _ ih =>
    obtain ⟨flags, split, value⟩ := ih
    exact ⟨.undo :: flags, congrArg (117 :: ·) split, value⟩
  | case3 semFlg flag rest => exact ⟨[], rfl, rfl⟩
  | case4 semFlg => exact ⟨[], rfl, rfl⟩

/-- All flags are read. -/
theorem flagLoop_map (semFlg : Nat) (flags : List Flag) :
    flagLoop semFlg (flags.map Flag.char) =
      (flags.foldl (fun flg flag => flg ||| flag.value) semFlg, []) := by
  induction flags generalizing semFlg with
  | nil => rfl
  | cons flag flags ih => cases flag <;> exact ih _

/-- A comma is no flag. -/
theorem flagLoop_append (semFlg : Nat) (text rest : List UInt8) :
    flagLoop semFlg (text ++ comma :: rest) =
      ((flagLoop semFlg text).1, (flagLoop semFlg text).2 ++ comma :: rest) := by
  -- By the cases of the loop: a flag, another flag, any other letter, or the end of the text.
  fun_induction flagLoop semFlg text with
  | case1 semFlg text ih => rw [List.cons_append, flagLoop, if_pos rfl, ih]
  | case2 semFlg text other ih =>
    rw [List.cons_append, flagLoop, if_neg other, if_pos rfl, ih]
  | case3 semFlg flag text other another =>
    rw [List.cons_append, flagLoop, if_neg other, if_neg another]
  | case4 semFlg => rfl

/-- A text passes when a turn of the loop finds no error in it. -/
def Passes (text : List UInt8) : Prop :=
  (parseOp text).2 = .ok ()

instance : DecidablePred Passes := fun text =>
  inferInstanceAs (Decidable ((parseOp text).2 = .ok ()))

/-- A turn of the loop looks no further than to the next comma. -/
theorem parseOp_append (text rest : List UInt8) :
    (parseOp (text ++ comma :: rest)).1 = (parseOp text).1 ∧
      (Passes (text ++ comma :: rest) ↔ Passes text) := by
  unfold Passes
  cases num : writtenNum text with
  | none =>
    obtain ⟨error, parsed⟩ := parseOp_noNum num
    obtain ⟨other, parsed'⟩ := parseOp_noNum ((writtenNum_append text rest).trans num)
    rw [parsed, parsed']
    simp
  | some number =>
    have num' := (writtenNum_append text rest).trans num
    cases op : writtenOp text with
    | none =>
      obtain ⟨error, parsed⟩ := parseOp_noOp num op
      obtain ⟨other, parsed'⟩ := parseOp_noOp num' ((writtenOp_append text rest).trans op)
      rw [parsed, parsed']
      simp
    -- Only here does the turn get as far as to the flags.
    | some written =>
      rw [parseOp_op num op, parseOp_op num' ((writtenOp_append text rest).trans op),
        behindOp_append op, flagLoop_append]
      by_cases wrong : written.1 = .equals ∧ narrow written.1 written.2 ≠ 0
      · simp only [if_pos wrong]
        simp
      · simp only [if_neg wrong]
        cases (flagLoop 0 (behindOp text)).2 with
        | nil => simp
        | cons flag behind => simp

/-- The text of an operation is parsed, unless it has `'='` and what is stored is not zero. -/
theorem parseOp_text (op : Operation) :
    parseOp op.text =
      let semNum := toUnsignedShort (min op.semaphore.value longMax : Nat)
      let semOp := narrow op.sign op.amount.value
      if op.sign = .equals ∧ semOp ≠ 0 then
        (⟨some semNum, some semOp, none⟩, .error .expectedZero)
      else (⟨some semNum, some semOp,
        some (op.flags.foldl (fun flg flag => flg ||| flag.value) 0)⟩, .ok ()) := by
  -- The text of an operation is read as the operation it was made from.
  rw [parseOp_op (writtenNum_text op) (writtenOp_text op), behindOp_text, flagLoop_map]

/-- What passes, and has no comma in it, is the text of an operation. -/
theorem exists_operation {text : List UInt8} (noComma : comma ∉ text) (passes : Passes text) :
    ∃ op : Operation, op.text = text ∧
      (op.sign = .equals → narrow op.sign op.amount.value = 0) := by
  cases num : writtenNum text with
  | none =>
    obtain ⟨error, parsed⟩ := parseOp_noNum num
    rw [Passes, parsed] at passes
    cases passes
  | some number =>
    cases op : writtenOp text with
    | none =>
      obtain ⟨error, parsed⟩ := parseOp_noOp num op
      rw [Passes, parsed] at passes
      cases passes
    | some written =>
      obtain ⟨sign, value⟩ := written
      obtain ⟨-, behind, split, written⟩ := writtenOp_eq_some.mp op
      obtain ⟨digits, -⟩ := writtenNum_eq_some.mp num
      obtain ⟨digits', rfl⟩ := writtenNum_eq_some.mp written
      obtain ⟨flags, flags_, -⟩ := flagLoop_eq 0 (behindOp text)
      have all : text = text.takeWhile isDigit ++
          sign.char :: (behind.takeWhile isDigit ++ behindOp text) := by
        rw [behindOp, split, List.tail_cons, List.takeWhile_append_dropWhile, ← split,
          List.takeWhile_append_dropWhile]
      rw [Passes, parseOp_op num op] at passes
      by_cases wrong : sign = .equals ∧ narrow sign (digitsValue (behind.takeWhile isDigit)) ≠ 0
      · simp only [if_pos wrong] at passes
        cases passes
      · simp only [if_neg wrong] at passes
        -- Nothing but a comma could be behind the flags.
        have noRest : (flagLoop 0 (behindOp text)).2 = [] := by
          cases rest : (flagLoop 0 (behindOp text)).2 with
          | nil => rfl
          | cons flag rest_ =>
            rw [rest] at passes flags_
            by_cases same : flag = comma
            · refine absurd ?_ noComma
              rw [all, flags_, same]
              simp
            · simp only [if_neg same] at passes
              cases passes
        rw [noRest, List.append_nil] at flags_
        have allDigits : ∀ text : List UInt8, ∀ byte ∈ text.takeWhile isDigit,
            isDigit byte = true := fun _ => List.all_eq_true.mp List.all_takeWhile
        refine ⟨⟨⟨_, digits, allDigits text⟩, sign, ⟨_, digits', allDigits behind⟩, flags⟩, ?_, ?_⟩
        · rw [Operation.text, ← flags_]
          exact all.symm
        · exact fun equals => not_not.mp fun nonzero => wrong ⟨equals, nonzero⟩

/-- Where the numbers fit, what passes is well formed. -/
theorem passes_iff {text : List UInt8} (noComma : comma ∉ text) (fits : FitsFields text) :
    Passes text ↔ WellFormed text := by
  -- Where the value fits, it is zero if and only if zero is stored.
  have stored : ∀ op : Operation, op.text = text →
      narrow op.sign op.amount.value = op.sign.apply op.amount.value := by
    rintro op rfl
    exact narrow_iff.mpr (fits.2 _ (writtenOp_text op))
  constructor
  · intro passes
    obtain ⟨op, same, zero⟩ := exists_operation noComma passes
    refine ⟨op, same, fun equals => ?_⟩
    have value := zero equals
    rw [stored op same, equals] at value
    exact Int.ofNat.inj value
  · rintro ⟨op, rfl, zeroTest⟩
    have right : ¬ (op.sign = .equals ∧ narrow op.sign op.amount.value ≠ 0) := by
      rintro ⟨equals, nonzero⟩
      rw [stored op rfl, zeroTest equals, equals] at nonzero
      exact nonzero rfl
    rw [Passes, parseOp_text]
    simp only [if_neg right]

/-- What is stored of an operation that is well formed. -/
theorem parseOp_stored_text {op : Operation} (passes : Passes op.text)
    (fits : FitsFields op.text) : (parseOp op.text).1 = op.sembuf := by
  -- Numbers that fit are stored as they are.
  have semNum := toUnsignedShort_iff.mpr (fits.1 _ (writtenNum_text op))
  have semOp : narrow op.sign op.amount.value = op.sign.apply op.amount.value :=
    narrow_iff.mpr (fits.2 _ (writtenOp_text op))
  rw [Passes, parseOp_text] at passes
  rw [parseOp_text]
  by_cases wrong : op.sign = .equals ∧ narrow op.sign op.amount.value ≠ 0
  · simp only [if_pos wrong] at passes
    exact nomatch passes
  · simp only [if_neg wrong]
    rw [semNum, semOp]
    rfl

/-- The texts on which turns of the loop are made, if there may be so many. -/
def reached : Nat → List (List UInt8) → List (List UInt8)
  | 0, _ => []
  | _, [] => []
  | left + 1, text :: texts =>
    text :: if Passes text then reached left texts else []

/-- They come in the order of the argument. -/
theorem take_reached (left : Nat) (texts : List (List UInt8)) : reached left texts <+: texts := by
  -- By induction on the texts, up to the one at which the loop stops.
  induction texts generalizing left with
  | nil => cases left <;> exact List.prefix_rfl
  | cons text texts ih =>
    cases left with
    | zero => exact List.nil_prefix
    | succ left =>
      rw [reached, List.cons_prefix_cons]
      refine ⟨rfl, ?_⟩
      split
      · exact ih left
      · exact List.nil_prefix

/-- There are not more than there may be. -/
theorem length_reached_le (left : Nat) (texts : List (List UInt8)) :
    (reached left texts).length ≤ left := by
  -- By induction on the texts, with one slot less for each.
  induction texts generalizing left with
  | nil => cases left <;> exact Nat.zero_le _
  | cons text texts ih =>
    cases left with
    | zero => exact le_rfl
    | succ left =>
      rw [reached, List.length_cons]
      split
      · exact Nat.succ_le_succ (ih left)
      · exact Nat.succ_le_succ (Nat.zero_le left)

/-- All of them are reached if all pass and there are not too many. -/
theorem reached_eq_self {left : Nat} {texts : List (List UInt8)} (enough : texts.length ≤ left)
    (passes : ∀ text ∈ texts, Passes text) : reached left texts = texts := by
  -- As long as a text passes, the next one is reached.
  induction texts generalizing left with
  | nil => cases left <;> rfl
  | cons text texts ih =>
    obtain ⟨here, later⟩ := List.forall_mem_cons.mp passes
    cases left with
    | zero => exact nomatch enough
    | succ left =>
      rw [reached, if_pos here, ih (Nat.le_of_succ_le_succ enough) later]

/-- There is no turn of the loop when there are too many operations. -/
theorem parseLoop_full {numOps : Nat} (full : numOps ≥ maxSemops) (arg : List UInt8) :
    parseLoop numOps arg = ⟨[], .error .tooManyOperations⟩ := by
  rw [parseLoop, if_pos full]

/-- The loop ends with an error, or where there is no comma, or goes on behind one. -/
theorem parseLoop_step {numOps : Nat} (room : numOps < maxSemops) (arg : List UInt8) :
    (∃ error, ¬ Passes arg ∧ parseLoop numOps arg = ⟨[(parseOp arg).1], .error error⟩) ∨
      Passes arg ∧ parseLoop numOps arg =
        match strchr arg comma with
        | none => ⟨[(parseOp arg).1], .ok (numOps + 1)⟩
        | some place =>
          (parseLoop (numOps + 1) (arg.drop (place + 1))).after (parseOp arg).1 := by
  -- A turn stores its element, whatever comes of it.
  rw [parseLoop, if_neg room.not_ge]
  cases parsed : parseOp arg with
  | mk element result =>
    cases result with
    | error error => exact .inl ⟨error, by simp [Passes, parsed], rfl⟩
    | ok _ => exact .inr ⟨by simp [Passes, parsed], rfl⟩

/-- What the loop stores, and when it returns a number of operations. -/
def LoopFacts (numOps : Nat) (arg : List UInt8) : Prop :=
  (parseLoop numOps arg).sops =
      (reached (maxSemops - numOps) (arg.splitOn comma)).map (fun text => (parseOp text).1) ∧
    ∀ count, (parseLoop numOps arg).result = .ok count ↔
      (∀ text ∈ arg.splitOn comma, Passes text) ∧
        numOps + (arg.splitOn comma).length = count ∧ count ≤ maxSemops

/-- Nothing is stored or returned when there are too many operations. -/
theorem loopFacts_full {numOps : Nat} (full : numOps ≥ maxSemops) (arg : List UInt8) :
    LoopFacts numOps arg := by
  -- There is at least one more operation, for which there is no room.
  have some_ := List.length_pos_iff.mpr (List.splitOn_ne_nil comma arg)
  rw [LoopFacts, parseLoop_full full, Nat.sub_eq_zero_of_le full]
  refine ⟨by rw [reached]; rfl, fun count => ⟨nofun, fun ⟨_, total, atMost⟩ => ?_⟩⟩
  omega

/-- That is what the loop does. -/
theorem loopFacts (numOps : Nat) (arg : List UInt8) : LoopFacts numOps arg := by
  -- The induction follows the commas.
  induction arg using split_induction comma generalizing numOps with
  | last text last =>
    by_cases full : numOps ≥ maxSemops
    · exact loopFacts_full full text
    · obtain ⟨left, room⟩ : ∃ left, maxSemops - numOps = left + 1 :=
        ⟨maxSemops - numOps - 1, by omega⟩
      rw [LoopFacts, List.splitOn_eq_singleton last, room, reached]
      obtain ⟨error, wrong, ended⟩ | ⟨passes, ended⟩ := parseLoop_step (not_le.mp full) text
      · rw [ended, if_neg wrong]
        exact ⟨rfl, fun count => ⟨nofun, fun all => absurd (all.1 text (by simp)) wrong⟩⟩
      · simp only [strchr_eq_none.mpr last] at ended
        rw [ended, if_pos passes]
        refine ⟨by cases left <;> rfl, fun count => ?_⟩
        simp only [Except.ok.injEq, List.mem_singleton, forall_eq, List.length_singleton]
        exact ⟨fun total => ⟨passes, total, by omega⟩, fun all => all.2.1⟩
  | inner text rest inner ih =>
    by_cases full : numOps ≥ maxSemops
    · exact loopFacts_full full _
    · obtain ⟨left, room⟩ : ∃ left, maxSemops - numOps = left + 1 :=
        ⟨maxSemops - numOps - 1, by omega⟩
      -- The turn does not look beyond the comma.
      obtain ⟨same, passes_⟩ := parseOp_append text rest
      rw [LoopFacts, List.splitOn_append_cons_self_of_not_mem inner, room, reached]
      obtain ⟨error, wrong, ended⟩ | ⟨passes, ended⟩ :=
        parseLoop_step (not_le.mp full) (text ++ comma :: rest)
      · rw [passes_] at wrong
        rw [ended, if_neg wrong, same]
        exact ⟨rfl, fun count =>
          ⟨nofun, fun all => absurd (all.1 text List.mem_cons_self) wrong⟩⟩
      · rw [passes_] at passes
        obtain ⟨sops, result⟩ := ih (numOps + 1)
        have behind : (text ++ comma :: rest).drop (text.length + 1) = rest := by
          rw [← List.drop_drop, List.drop_left]
          rfl
        simp only [strchr_append inner, behind, same] at ended
        rw [show maxSemops - (numOps + 1) = left by omega] at sops
        rw [ended, if_pos passes]
        refine ⟨congrArg (_ :: ·) sops, fun count => (result count).trans ?_⟩
        rw [List.forall_mem_cons, List.length_cons]
        constructor
        · rintro ⟨all, total, atMost⟩
          exact ⟨⟨passes, all⟩, by omega, atMost⟩
        · rintro ⟨⟨_, all⟩, total, atMost⟩
          exact ⟨all, by omega, atMost⟩

/-- What `parseOps` does with the texts between the commas. -/
theorem parseOps_eq (arg : List UInt8) :
    (parseOps arg).sops =
        (reached maxSemops (arg.splitOn comma)).map (fun text => (parseOp text).1) ∧
      ∀ count, (parseOps arg).result = .ok count ↔
        (∀ text ∈ arg.splitOn comma, Passes text) ∧
          (arg.splitOn comma).length = count ∧ count ≤ maxSemops := by
  -- The facts about the loop, read from its start.
  have all := loopFacts 0 arg
  simp only [LoopFacts, Nat.sub_zero, Nat.zero_add] at all
  exact all

/-- Where the numbers that are read fit, it is the well formed texts that are passed. -/
theorem fits_reached_iff {left : Nat} {texts : List (List UInt8)}
    (noComma : ∀ text ∈ texts, comma ∉ text) :
    (∀ text ∈ reached left texts, FitsFields text) ↔
      ∀ front text back, texts = front ++ text :: back → front.length < left →
        (∀ earlier ∈ front, WellFormed earlier) → FitsFields text := by
  induction texts generalizing left with
  | nil =>
    have none_ : reached left [] = [] := by cases left <;> rfl
    rw [none_]
    exact ⟨fun _ front text back split => absurd split (by simp), fun _ => nofun⟩
  | cons text texts ih =>
    obtain ⟨here, later⟩ := List.forall_mem_cons.mp noComma
    cases left with
    | zero => exact ⟨(fun _ front _ _ _ less => nomatch less), fun _ => nofun⟩
    -- The first text is reached in any case, the others if it passes.
    | succ left =>
      rw [reached, List.forall_mem_cons]
      constructor
      · rintro ⟨fits, others⟩ front other back split less wellFormed
        cases front with
        | nil =>
          obtain ⟨rfl, -⟩ := List.cons.inj split
          exact fits
        | cons first front =>
          -- The first text passes, so that the others are reached.
          obtain ⟨rfl, behind⟩ := List.cons.inj split
          obtain ⟨first, front_⟩ := List.forall_mem_cons.mp wellFormed
          rw [if_pos ((passes_iff here fits).mpr first)] at others
          exact (ih later).mp others front other back behind (Nat.lt_of_succ_lt_succ less) front_
      · intro all
        have fits : FitsFields text := all [] text texts rfl (Nat.succ_pos left) nofun
        refine ⟨fits, ?_⟩
        by_cases passes : Passes text
        · rw [if_pos passes]
          refine (ih later).mpr fun front other back split less wellFormed => ?_
          refine all (text :: front) other back (congrArg (text :: ·) split)
            (Nat.succ_lt_succ less) (List.forall_mem_cons.mpr ⟨?_, wellFormed⟩)
          exact (passes_iff here fits).mp passes
        · rw [if_neg passes]
          exact nofun

/-- `parseOps` does with an argument what is documented. -/
structure KeepsGrammar (arg : List UInt8) : Prop where
  /-- Lists of operations are accepted, and nothing else. -/
  accepted : (∃ count, (parseOps arg).result = .ok count) ↔
    ∃ ops, Documented ops ∧ opsText ops = arg
  /-- The operations are returned, and their number. -/
  returned : ∀ count, (parseOps arg).result = .ok count →
    ∃ ops, Documented ops ∧ opsText ops = arg ∧ ops.length = count ∧
      (parseOps arg).sops = ops.map Operation.sembuf
  /-- No other number is stored than the one that is written. -/
  stored : List.Forall₂ Sembuf.Holds (parseOps arg).sops
    ((arg.splitOn comma).take (parseOps arg).sops.length)
  /-- Nothing is stored behind the end of `sops`. -/
  inside : (parseOps arg).sops.length ≤ maxSemops

/-- What an argument must be for that. -/
structure Harmless (arg : List UInt8) : Prop where
  /-- The numbers that come to be read fit the fields in which they are stored. -/
  fits : ∀ front text back, arg.splitOn comma = front ++ text :: back →
    front.length < maxSemops → (∀ earlier ∈ front, WellFormed earlier) → FitsFields text
  /-- A list of operations does not have the flag `u` behind `"=0"`. -/
  noUndo : ∀ ops : List Operation, ops ≠ [] → opsText ops = arg → ops.length ≤ maxSemops →
    (∀ op ∈ ops, op.ZeroTest) → ∀ op ∈ ops, op.NoUndo

/-- The stored numbers are right if and only if the numbers that are read fit. -/
theorem stored_iff (arg : List UInt8) :
    List.Forall₂ Sembuf.Holds (parseOps arg).sops
        ((arg.splitOn comma).take (parseOps arg).sops.length) ↔
      ∀ front text back, arg.splitOn comma = front ++ text :: back →
        front.length < maxSemops → (∀ earlier ∈ front, WellFormed earlier) → FitsFields text := by
  -- What is stored are the texts that the loop has reached, each with what it says.
  rw [← fits_reached_iff fun text mem => notMem_of_mem_splitOn mem, (parseOps_eq arg).1,
    List.length_map, ← List.prefix_iff_eq_take.mp (take_reached _ _), List.forall₂_map_left_iff,
    List.forall₂_same]
  simp only [holds_iff]

/-- A list of operations is accepted where the numbers fit, unless it is too long. -/
theorem result_of_operations {ops : List Operation} (some_ : ops ≠ [])
    (atMost : ops.length ≤ maxSemops) (zeroTest : ∀ op ∈ ops, op.ZeroTest)
    (fits : ∀ front text back, (opsText ops).splitOn comma = front ++ text :: back →
      front.length < maxSemops → (∀ earlier ∈ front, WellFormed earlier) → FitsFields text) :
    (parseOps (opsText ops)).result = .ok ops.length := by
  have split := (opsText_eq_iff some_).mp rfl
  have length : ((opsText ops).splitOn comma).length = ops.length := by
    rw [split, List.length_map]
  have wellFormed : ∀ text ∈ (opsText ops).splitOn comma, WellFormed text := by
    intro text mem
    rw [split] at mem
    obtain ⟨op, memOps, rfl⟩ := List.mem_map.mp mem
    exact ⟨op, rfl, zeroTest op memOps⟩
  refine ((parseOps_eq _).2 _).mpr ⟨fun text mem => ?_, length, atMost⟩
  -- All that comes before a text is well formed, so that its numbers are read.
  obtain ⟨front, back, around⟩ := List.append_of_mem mem
  have less : front.length < maxSemops := by
    rw [around, List.length_append, List.length_cons] at length
    omega
  have fits_ : FitsFields text := fits front text back around less fun earlier memFront =>
    wellFormed earlier (around ▸ List.mem_append_left _ memFront)
  exact (passes_iff (notMem_of_mem_splitOn mem) fits_).mpr (wellFormed text mem)

/-- What is accepted where the numbers fit is a list of operations, and is stored as such. -/
theorem operations_of_result {arg : List UInt8} {count : Nat}
    (accepted : (parseOps arg).result = .ok count)
    (fits : ∀ front text back, arg.splitOn comma = front ++ text :: back →
      front.length < maxSemops → (∀ earlier ∈ front, WellFormed earlier) → FitsFields text) :
    ∃ ops : List Operation, ops ≠ [] ∧ opsText ops = arg ∧ ops.length = count ∧
      count ≤ maxSemops ∧ (∀ op ∈ ops, op.ZeroTest ∧ op.Representable) ∧
        (parseOps arg).sops = ops.map Operation.sembuf := by
  -- Everything has been reached, so that all numbers fit.
  obtain ⟨passes, length, atMost⟩ := ((parseOps_eq arg).2 count).mp accepted
  have all := reached_eq_self (length ▸ atMost) passes
  have noComma : ∀ text ∈ arg.splitOn comma, comma ∉ text := fun text => notMem_of_mem_splitOn
  have fits_ := (fits_reached_iff noComma).mpr fits
  rw [all] at fits_
  obtain ⟨ops, split, facts⟩ : ∃ ops : List Operation,
      arg.splitOn comma = ops.map Operation.text ∧
        ∀ op ∈ ops, op.ZeroTest ∧ op.Representable ∧ (parseOp op.text).1 = op.sembuf := by
    refine exists_map_write fun text mem => ?_
    obtain ⟨op, rfl, zeroTest⟩ :=
      (passes_iff (noComma text mem) (fits_ text mem)).mp (passes text mem)
    exact ⟨op, rfl, zeroTest, fits_text.mp (fits_ _ mem),
      parseOp_stored_text (passes _ mem) (fits_ _ mem)⟩
  have some_ : ops ≠ [] := by
    rintro rfl
    exact List.splitOn_ne_nil comma arg split
  refine ⟨ops, some_, (opsText_eq_iff some_).mpr split, ?_, atMost,
    fun op mem => ⟨(facts op mem).1, (facts op mem).2.1⟩, ?_⟩
  · rw [← length, split, List.length_map]
  · rw [(parseOps_eq arg).1, all, split, List.map_map]
    exact List.map_inj_left.mpr fun op mem => (facts op mem).2.2

/-- `parseOps` keeps to the grammar if and only if the argument is harmless. -/
theorem keepsGrammar_iff (arg : List UInt8) : KeepsGrammar arg ↔ Harmless arg := by
  constructor
  · intro keeps
    have fits := (stored_iff arg).mp keeps.stored
    refine ⟨fits, ?_⟩
    rintro ops some_ rfl atMost zeroTest
    have accepted := result_of_operations some_ atMost zeroTest fits
    obtain ⟨others, documented, same⟩ := keeps.accepted.mp ⟨_, accepted⟩
    -- There is only one way to read the argument.
    have split := (opsText_eq_iff documented.some_).mp same
    rw [(opsText_eq_iff some_).mp rfl] at split
    have unique := (List.map_injective_iff.mpr Operation.text_injective) split
    exact unique ▸ documented.noUndo
  -- Where all numbers fit, only the flag behind `=0` could do harm.
  · intro harmless
    have ofOps : ∀ ops : List Operation, ops ≠ [] → opsText ops = arg →
        ops.length ≤ maxSemops → (∀ op ∈ ops, op.ZeroTest ∧ op.Representable) →
          Documented ops := by
      intro ops some_ same atMost all
      exact ⟨some_, atMost, fun op mem => (all op mem).1,
        harmless.noUndo ops some_ same atMost fun op mem => (all op mem).1,
        fun op mem => (all op mem).2⟩
    refine ⟨⟨?_, ?_⟩, ?_, (stored_iff arg).mpr harmless.fits, ?_⟩
    · rintro ⟨count, accepted⟩
      obtain ⟨ops, some_, same, length, atMost, all, -⟩ :=
        operations_of_result accepted harmless.fits
      exact ⟨ops, ofOps ops some_ same (length ▸ atMost) all, same⟩
    · rintro ⟨ops, documented, rfl⟩
      exact ⟨_, result_of_operations documented.some_ documented.atMost documented.zeroTest
        harmless.fits⟩
    · intro count accepted
      obtain ⟨ops, some_, same, length, atMost, all, sops⟩ :=
        operations_of_result accepted harmless.fits
      exact ⟨ops, ofOps ops some_ same (length ▸ atMost) all, same, length, sops⟩
    · rw [(parseOps_eq arg).1, List.length_map]
      exact length_reached_le _ _

/-- `"70000+1"`. -/
def tooLarge : List UInt8 := [55, 48, 48, 48, 48, 43, 49]

/-- The number of a semaphore that does not exist is accepted, and another one is stored. -/
theorem parseOps_not_keepsGrammar : ¬ ∀ arg, KeepsGrammar arg := by
  intro promised
  -- The number of the semaphore does not fit in an unsigned short.
  have fits : FitsFields tooLarge :=
    (stored_iff tooLarge).mp (promised tooLarge).stored [] tooLarge [] (by decide) (by decide) nofun
  exact absurd (fits.1 70000 (by decide)) (by decide)

end SysProg.Svsem
