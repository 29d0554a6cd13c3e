import SysProg.Compilers.FirstFollowLaws

/-! The predictive parser of an LL(1) grammar ends, and recognises its language. -/

namespace SysProg.Compilers.Predictive

variable {T N : Type} [DecidableEq T] [DecidableEq N] {g : Grammar T N} {X : N} {x : Option T}
  {a : T} {right stack : List (Symbol T N)} {word passed tokens : List T} {finish : Parsing T N}

section Table

theorem mem_select :
    x ∈ g.select (X, right) ↔
      x ∈ firstOf g.first right ∧ x.isSome ∨
        none ∈ firstOf g.first right ∧ (X, x) ∈ g.follow := by
  rw [Grammar.select]
  -- Where the right-hand side vanishes, what follows X selects it as well.
  split
  next nullable => simp [nullable, mem_setOf]
  next never =>
    simp only [never, false_and, or_false]
    refine ⟨fun there => ⟨there, ?_⟩, And.left⟩
    by_contra empty
    obtain rfl := Option.not_isSome_iff_eq_none.mp empty
    exact never there

/-- An entry of the table is a production that can be used. -/
theorem M_mem (entry : g.M X x = some right) :
    (X, right) ∈ g.productions ∧ x ∈ g.select (X, right) := by
  -- The entry is a production that was searched by its left-hand side and its selection.
  obtain ⟨⟨X_, right_⟩, found, rfl⟩ := Option.map_eq_some_iff.mp entry
  have chosen := List.find?_some found
  simp only [Bool.decide_and, Bool.and_eq_true, decide_eq_true_eq] at chosen
  obtain ⟨rfl, selected⟩ := chosen
  exact ⟨List.mem_of_find?_eq_some found, selected⟩

/-- A production that can be used is the entry of the table. -/
theorem M_eq (ll1 : g.IsLL1) (mem : (X, right) ∈ g.productions)
    (selected : x ∈ g.select (X, right)) : g.M X x = some right := by
  -- The table has an entry, and by LL(1) no other production is selected.
  cases entry : g.M X x with
  | none =>
    have none_ := List.find?_eq_none.mp (Option.map_eq_none_iff.mp entry) _ mem
    simp [selected] at none_
  | some other =>
    obtain ⟨mem_, selected_⟩ := M_mem entry
    by_contra different
    refine ll1 _ mem_ _ mem rfl (fun same => different ?_) x selected_ selected
    rw [(Prod.mk.inj same).2]

end Table

section Rounds

/-- A terminal is matched. -/
theorem ends_match (later : g.parser.Ends ⟨stack, tokens, false⟩ finish) :
    g.parser.Ends ⟨.terminal a :: stack, a :: tokens, false⟩ finish :=
  .round rfl (if_pos rfl) later

/-- A nonterminal is replaced, as the table says. -/
theorem ends_derive (entry : g.M X tokens.head? = some right)
    (later : g.parser.Ends ⟨right ++ stack, tokens, false⟩ finish) :
    g.parser.Ends ⟨.nonterminal X :: stack, tokens, false⟩ finish := by
  refine .round rfl ?_ later
  simp only [Grammar.parser, Parsing.a, entry]

theorem ends_mismatch (different : some a ≠ tokens.head?) :
    g.parser.Ends ⟨.terminal a :: stack, tokens, false⟩
      ⟨.terminal a :: stack, tokens, true⟩ :=
  .round rfl (if_neg different) (.stop rfl)

theorem ends_raiseError (entry : g.M X tokens.head? = none) :
    g.parser.Ends ⟨.nonterminal X :: stack, tokens, false⟩
      ⟨.nonterminal X :: stack, tokens, true⟩ := by
  refine .round rfl ?_ (.stop rfl)
  simp only [Grammar.parser, Parsing.a, entry]

/-- What is on the stack can be derived behind the tokens that have been passed. -/
def Derived (g : Grammar T N) (passed : List T) (stack : List (Symbol T N)) : Prop :=
  Leftmost g.cfg [.nonterminal g.start] passed stack

theorem Derived.match_ (derived : Derived g passed (.terminal a :: stack)) :
    Derived g (passed ++ [a]) stack :=
  derived.trans (.read (@Leftmost.refl _ g.cfg stack))

theorem Derived.derive (derived : Derived g passed (.nonterminal X :: stack))
    (mem : (X, right) ∈ g.productions) : Derived g passed (right ++ stack) := by
  -- The production is one more step of the leftmost derivation.
  have used : Leftmost g.cfg (.nonterminal X :: stack) [] (right ++ stack) :=
    @Leftmost.expand _ g.cfg ⟨X, right⟩ _ _ _ (mem_rules.mpr mem) (.refl _)
  have both := derived.trans used
  rwa [List.append_nil] at both

/-- The tokens are those that have been passed, and those that are left. -/
def Sound (g : Grammar T N) (word : List T) (state : Parsing T N) : Prop :=
  ∃ passed, word = passed ++ state.tokens ∧ Derived g passed state.stack

theorem sound_body {state next : Parsing T N} (sound : Sound g word state)
    (stepped : g.parser.body state = some next) : Sound g word next := by
  obtain ⟨stack, tokens, failed⟩ := state
  obtain ⟨passed, rfl, derived⟩ := sound
  simp only [Grammar.parser] at stepped
  -- The stack is empty, or a terminal or a nonterminal is on top of it.
  split at stepped
  · simp at stepped
  next X stack =>
    split at stepped
    -- The terminal is the next token: it is matched.
    next same =>
      obtain rfl := Option.some.inj stepped
      obtain ⟨later, rfl⟩ := List.head?_eq_some_iff.mp same.symm
      exact ⟨passed ++ [X], by simp, derived.match_⟩
    next =>
      obtain rfl := Option.some.inj stepped
      exact ⟨passed, rfl, derived⟩
  next X stack =>
    split at stepped
    · obtain rfl := Option.some.inj stepped
      exact ⟨passed, rfl, derived⟩
    -- The entry of the table replaces the nonterminal.
    next right entry =>
      obtain rfl := Option.some.inj stepped
      exact ⟨passed, rfl, derived.derive (M_mem entry).1⟩

end Rounds

section Runs

/-- The table has the production that a leftmost derivation of the tokens begins with. -/
theorem entry_of_leftmost (ll1 : g.IsLL1) {rest : List (Symbol T g.cfg.NT)}
    (derived : Derived g passed (.nonterminal X :: stack)) (mem : (X, right) ∈ g.productions)
    (left : Leftmost g.cfg (right ++ stack) word rest) (ended : word = [] → rest = []) :
    g.M X word.head? = some right := by
  refine M_eq ll1 mem (mem_select.mpr ?_)
  -- The word begins with what the right-hand side begins with, or with what follows X.
  rcases mem_firstOf_append.mp (firstOf_leftmost left ended) with first | ⟨nullable, later⟩
  · exact .inl first
  · exact .inr ⟨nullable, mem_follow_of_derives derived.derives later⟩

/-- What can be derived from the stack is accepted. -/
theorem ends_accepting (ll1 : g.IsLL1) {stack rest : List (Symbol T g.cfg.NT)}
    (left : Leftmost g.cfg stack tokens rest) (ended : rest = [])
    (derived : Derived g passed stack) :
    g.parser.Ends ⟨stack, tokens, false⟩ ⟨[], [], false⟩ := by
  -- The parser makes the steps of the derivation.
  induction left generalizing passed with
  | refl form =>
    subst ended
    exact .stop rfl
  | read later ih => exact ends_match (ih ended derived.match_)
  | expand mem later ih =>
    have used := mem_rules.mp mem
    have entry := entry_of_leftmost ll1 derived used later fun _ => ended
    exact ends_derive entry (ih ended (derived.derive used))

/-- A token that can come first is read. -/
theorem ends_reading (ll1 : g.IsLL1) {stack rest : List (Symbol T g.cfg.NT)}
    (left : Leftmost g.cfg stack word rest) (one : word = [a]) (derived : Derived g passed stack) :
    ∃ later, Derived g (passed ++ [a]) later ∧ ∀ finish,
      g.parser.Ends ⟨later, tokens, false⟩ finish →
        g.parser.Ends ⟨stack, a :: tokens, false⟩ finish := by
  -- By induction on the leftmost derivation up to the letter.
  induction left generalizing passed with
  | refl form => simp at one
  | @read letter form word rest later ih =>
    obtain ⟨rfl, rfl⟩ := List.cons_eq_cons.mp one
    exact ⟨form, derived.match_, fun finish => ends_match⟩
  | @expand rule form word rest mem later ih =>
    -- The production of the derivation is the one that the table has.
    have used := mem_rules.mp mem
    have entry := entry_of_leftmost ll1 derived used later fun empty => by simp [empty] at one
    obtain ⟨later_, derived_, ends⟩ := ih one (derived.derive used)
    refine ⟨later_, derived_, fun finish there => ends_derive ?_ (ends finish there)⟩
    rw [one] at entry
    exact entry

/-- The next token can follow every nonterminal behind which everything can vanish. -/
def Followed (g : Grammar T N) (x : Option T) (form : List (Symbol T N)) : Prop :=
  ∀ front X back, form = front ++ .nonterminal X :: back → none ∈ firstOf g.first back →
    (X, x) ∈ g.follow

theorem followed_right (mem : (X, right) ∈ g.productions) (follows : (X, x) ∈ g.follow) :
    Followed g x right := by
  intro front A back whole nullable
  subst whole
  exact follow_closed (.inr ⟨X, front, back, mem, .inr ⟨nullable, follows⟩⟩)

/-- What can vanish does, where the next token can follow. -/
theorem ends_vanishing (ll1 : g.IsLL1) {form rest : List (Symbol T g.cfg.NT)}
    (left : Leftmost g.cfg form word rest) (empty : word = []) (ended : rest = [])
    (followed : Followed g tokens.head? form)
    (later : g.parser.Ends ⟨stack, tokens, false⟩ finish) :
    g.parser.Ends ⟨form ++ stack, tokens, false⟩ finish := by
  induction left with
  | refl form =>
    subst ended
    exact later
  | read later ih => simp at empty
  | @expand rule form word rest mem left ih =>
    subst empty ended
    have used := mem_rules.mp mem
    -- Both the production and what is behind it can vanish.
    have both : none ∈ firstOf g.first rule.output ∧ none ∈ firstOf g.first form := by
      simpa [mem_firstOf_append] using firstOf_leftmost left fun _ => rfl
    have follows : (rule.input, tokens.head?) ∈ g.follow := followed [] _ form rfl both.2
    have entry : g.M rule.input tokens.head? = some rule.output :=
      M_eq ll1 used (mem_select.mpr (.inr ⟨both.1, follows⟩))
    refine ends_derive entry ?_
    show g.parser.Ends ⟨rule.output ++ (form ++ stack), tokens, false⟩ finish
    rw [← List.append_assoc]
    refine ih rfl rfl ?_
    intro front A back whole nullable
    rcases stands whole.symm with ⟨between, output, rfl⟩ | ⟨between, rfl, behind⟩
    · refine followed_right used follows front A between output ?_
      exact (mem_firstOf_append.mp nullable).elim (fun found => by simp at found) And.left
    · exact followed (.nonterminal rule.input :: between) A back (by simp [behind]) nullable

/-- Where the next token can not come first, it stays, and the parser ends. -/
theorem ends_staying (ll1 : g.IsLL1)
    (never : ∀ a, tokens.head? = some a → some a ∉ firstOf g.first stack) :
    ∃ finish, g.parser.Ends ⟨stack, tokens, false⟩ finish := by
  induction stack with
  | nil => exact ⟨_, .stop rfl⟩
  | cons symbol stack ih =>
    cases symbol with
    | terminal a =>
      refine ⟨_, ends_mismatch fun same => ?_⟩
      exact never a same.symm (List.mem_singleton_self _)
    | nonterminal X =>
      cases entry : g.M X tokens.head? with
      | none => exact ⟨_, ends_raiseError entry⟩
      | some right =>
        obtain ⟨used, selected⟩ := M_mem entry
        rcases mem_select.mp selected with ⟨first, some_⟩ | ⟨nullable, follows⟩
        · -- The token would come first.
          obtain ⟨a, same⟩ := Option.isSome_iff_exists.mp some_
          rw [same] at first
          refine absurd (firstOf_expand used ?_) (never a same)
          exact mem_firstOf_append.mpr (.inl ⟨first, rfl⟩)
        · -- The nonterminal vanishes, and the rest of the stack is as before.
          obtain ⟨finish, later⟩ := ih fun a same first =>
            never a same (firstOf_expand used (mem_firstOf_append.mpr (.inr ⟨nullable, first⟩)))
          have left := (@Leftmost.word_iff _ g.cfg right []).mpr (mem_firstOf_iff.mp nullable)
          refine ⟨finish, ends_derive entry ?_⟩
          exact ends_vanishing ll1 left rfl rfl (followed_right used follows) later

/-- The parser ends, whatever the tokens are. -/
theorem ends_always (ll1 : g.IsLL1) (derived : Derived g passed stack) :
    ∃ finish, g.parser.Ends ⟨stack, tokens, false⟩ finish := by
  -- By induction on the tokens.
  induction tokens generalizing passed stack with
  | nil => exact ends_staying ll1 nofun
  | cons a tokens ih =>
    -- Where the form can begin with the token, the parser reads it; otherwise it stops before it.
    by_cases first : some a ∈ firstOf g.first stack
    · obtain ⟨back, derives⟩ := mem_firstOf_iff.mp first
      obtain ⟨rest, left, _⟩ := @Leftmost.of_derives _ g.cfg stack back [a] derives
      obtain ⟨later, derived_, reads⟩ :=
        @ends_reading _ _ _ _ g _ _ _ tokens ll1 _ _ left rfl derived
      obtain ⟨finish, ends⟩ := ih derived_
      exact ⟨finish, reads finish ends⟩
    · refine ends_staying ll1 fun other same => ?_
      obtain rfl := Option.some.inj same
      exact first

end Runs

/-- The parser of an LL(1) grammar ends, and its language is what it accepts to the end. -/
theorem parser_recognises (g : Grammar T N) (ll1 : g.IsLL1) (word : List T) :
    ∃ enough finish,
      (∀ rounds, enough ≤ rounds → g.parser.run rounds (g.parse word) = some finish) ∧
      (finish.failed = false ∧ finish.tokens = [] ↔ word ∈ g.cfg.language) ∧
      (finish.failed = false → ∃ passed ∈ g.cfg.language, word = passed ++ finish.tokens) := by
  have start : Derived g [] [.nonterminal g.start] := .refl _
  -- Without an error, what has been read is in the language.
  have sound : ∀ finish, g.parser.Ends (g.parse word) finish → finish.failed = false →
      ∃ passed ∈ g.cfg.language, word = passed ++ finish.tokens := by
    intro finish ends good
    obtain ⟨⟨passed, parts, derived⟩, stopped⟩ :=
      ends.keeps (fun _ _ sound _ stepped => sound_body sound stepped) ⟨[], rfl, start⟩
    refine ⟨passed, Leftmost.language_iff.mp ?_, parts⟩
    have empty : finish.stack = [] := by simpa [Grammar.parser, good] using stopped
    rwa [Derived, empty] at derived
  by_cases mem : word ∈ g.cfg.language
  · have ends := ends_accepting ll1 (Leftmost.language_iff.mpr mem) rfl start
    obtain ⟨enough, ran⟩ := ends.run
    exact ⟨enough, _, ran, ⟨fun _ => mem, fun _ => ⟨rfl, rfl⟩⟩, sound _ ends⟩
  · obtain ⟨finish, ends⟩ := @ends_always _ _ _ _ g _ _ word ll1 start
    obtain ⟨enough, ran⟩ := ends.run
    refine ⟨enough, finish, ran, ⟨fun accepted => ?_, fun mem_ => absurd mem_ mem⟩, sound _ ends⟩
    obtain ⟨passed, mem_, parts⟩ := sound finish ends accepted.1
    rw [accepted.2, List.append_nil] at parts
    exact parts ▸ mem_

/-- Balanced parentheses: `S → ( S ) S | ε`. -/
def parentheses : Grammar Char Unit :=
  ⟨(), [((), [.terminal '(', .nonterminal (), .terminal ')', .nonterminal ()]), ((), [])]⟩

/-- What the parser accepts is in the language. -/
theorem parser_recognises_parentheses : ['(', ')'] ∈ parentheses.cfg.language := by
  obtain ⟨enough, finish, ran, accepts, _⟩ :=
    parser_recognises parentheses (by decide) ['(', ')']
  -- Six rounds are enough, and the parser accepts.
  have ran_ : parentheses.parser.run 6 (parentheses.parse ['(', ')']) = some ⟨[], [], false⟩ := by
    decide
  have same := (ran (6 + enough) (by omega)).symm.trans (Loop.run_mono ran_ enough)
  obtain rfl := Option.some.inj same
  exact accepts.mp ⟨rfl, rfl⟩

/-- The loop also ends without an error when there are tokens left. -/
theorem parentheses_leaves_token :
    parentheses.parser.run 5 (parentheses.parse ['(', ')', ')']) = some ⟨[], [')'], false⟩ := by
  decide

end SysProg.Compilers.Predictive
