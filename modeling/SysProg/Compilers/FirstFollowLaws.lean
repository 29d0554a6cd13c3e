import SysProg.Compilers.Predictive
import SysProg.Lib.Leftmost

/-! The computed sets are `FIRST` and `FOLLOW`. -/

namespace SysProg.Compilers.Predictive

variable {T N : Type} {g : Grammar T N} {known : Sets T N} {A X : N} {x : Option T} {a : T}
  {form front back right : List (Symbol T N)}

theorem mem_terminals (mem : (X, right) ∈ g.productions)
    (there : .terminal a ∈ right) : a ∈ g.terminals :=
  List.mem_filterMap.mpr ⟨.terminal a, List.mem_flatMap.mpr ⟨_, mem, there⟩, rfl⟩

theorem mem_nonterminals (mem : (X, right) ∈ g.productions)
    (there : .nonterminal A ∈ right) : A ∈ g.nonterminals :=
  List.mem_filterMap.mpr ⟨.nonterminal A, List.mem_flatMap.mpr ⟨_, mem, there⟩, rfl⟩

theorem mem_possible {nonterminals : List N} :
    (X, x) ∈ g.possible nonterminals ↔
      X ∈ nonterminals ∧ ∀ letter, x = some letter → letter ∈ g.terminals := by
  cases x <;> simp [Grammar.possible]

variable [DecidableEq N]

theorem mem_setOf : x ∈ setOf known X ↔ (X, x) ∈ known := by
  simp [setOf]

variable [DecidableEq T]

theorem mem_rules {rule : ContextFreeRule T N} :
    rule ∈ g.cfg.rules ↔ (rule.input, rule.output) ∈ g.productions := by
  -- The rules of the grammar are the productions, with a name for their parts.
  rw [List.mem_toFinset, List.mem_map]
  constructor
  · intro mem
    obtain ⟨production, mem, rfl⟩ := mem
    exact mem
  · exact fun mem => ⟨_, mem, rfl⟩

/-- A production can be used. -/
theorem produces (mem : (X, right) ∈ g.productions) (back : List (Symbol T N)) :
    g.cfg.Produces (.nonterminal X :: back) (right ++ back) :=
  ⟨⟨X, right⟩, mem_rules.mpr mem, .head back⟩

section First

theorem mem_firstOf_nonterminal :
    x ∈ firstOf known (.nonterminal X :: back) ↔
      (X, x) ∈ known ∧ x.isSome ∨ (X, none) ∈ known ∧ x ∈ firstOf known back := by
  simp only [firstOf, List.mem_append, List.mem_filter, mem_setOf]
  -- Behind a nonterminal that vanishes, what follows is looked at as well.
  split
  next nullable => simp [nullable]
  next never => simp [never]

/-- The back counts when the front is nullable. -/
theorem mem_firstOf_append :
    x ∈ firstOf known (front ++ back) ↔
      x ∈ firstOf known front ∧ x.isSome ∨ none ∈ firstOf known front ∧ x ∈ firstOf known back := by
  induction front with
  | nil => cases x <;> simp [firstOf]
  | cons symbol front ih =>
    cases symbol with
    | terminal letter => cases x <;> simp [firstOf]
    | nonterminal X =>
      rw [List.cons_append, mem_firstOf_nonterminal, ih, mem_firstOf_nonterminal,
        mem_firstOf_nonterminal]
      -- Only the case of `ε` is not a matter of rearranging.
      cases x with
      | none => simp [and_assoc]
      | some letter =>
        simp only [Option.isSome_some, and_true, Option.isSome_none, Bool.false_eq_true, and_false,
          false_or]
        tauto

/-- What is found for a string can happen, if what is known of the nonterminals can. -/
theorem firstOf_sound (sound : ∀ fact ∈ known, g.IsFirst [.nonterminal fact.1] fact.2)
    (mem : x ∈ firstOf known form) : g.IsFirst form x := by
  induction form with
  | nil =>
    obtain rfl := List.mem_singleton.mp mem
    exact .refl []
  | cons symbol rest ih =>
    cases symbol with
    | terminal letter =>
      obtain rfl := List.mem_singleton.mp mem
      exact ⟨rest, .refl _⟩
    | nonterminal X =>
      rcases mem_firstOf_nonterminal.mp mem with ⟨there, some_⟩ | ⟨nullable, later⟩
      · obtain ⟨letter, rfl⟩ := Option.isSome_iff_exists.mp some_
        obtain ⟨rest_, derives⟩ := sound _ there
        exact ⟨rest_ ++ rest, derives.append_right rest⟩
      · -- The nonterminal vanishes, so that the rest comes first.
        have vanishes : g.cfg.Derives (.nonterminal X :: rest) rest :=
          ContextFreeGrammar.Derives.append_right (sound _ nullable) rest
        cases x with
        | none => exact vanishes.trans (ih later)
        | some letter =>
          obtain ⟨rest_, derives⟩ := ih later
          exact ⟨rest_, vanishes.trans derives⟩

theorem IsFirst.produces (mem : (X, right) ∈ g.productions) (first : g.IsFirst (right ++ back) x) :
    g.IsFirst (.nonterminal X :: back) x := by
  -- The production is the first step of the derivation.
  have used := Predictive.produces mem back
  cases x with
  | none => exact used.trans_derives first
  | some letter =>
    obtain ⟨rest, derives⟩ := first
    exact ⟨rest, used.trans_derives derives⟩

theorem inferFirst_sound (sound : ∀ fact ∈ known, g.IsFirst [.nonterminal fact.1] fact.2) :
    ∀ fact ∈ g.inferFirst known, g.IsFirst [.nonterminal fact.1] fact.2 := by
  -- A fact comes from a production, and what is first of its right-hand side is so by the form's.
  intro fact mem
  obtain ⟨⟨X, right⟩, used, inferred⟩ := List.mem_flatMap.mp mem
  obtain ⟨x, first, rfl⟩ := List.mem_map.mp inferred
  refine IsFirst.produces used ?_
  rw [List.append_nil]
  exact firstOf_sound sound first

/-- Terminals that are found for a string are in it, or known of its nonterminals. -/
theorem mem_terminals_of_firstOf {letters : List T}
    (within : ∀ fact ∈ known, ∀ letter, fact.2 = some letter → letter ∈ letters)
    (form_ : ∀ letter, .terminal letter ∈ form → letter ∈ letters)
    (mem : some a ∈ firstOf known form) : a ∈ letters := by
  -- By induction on the form: the first letter is one of its terminals or is known of a
  -- nonterminal.
  induction form with
  | nil => simp [firstOf] at mem
  | cons symbol rest ih =>
    cases symbol with
    | terminal letter =>
      obtain rfl := Option.some.inj (List.mem_singleton.mp mem)
      exact form_ a List.mem_cons_self
    | nonterminal X =>
      rcases mem_firstOf_nonterminal.mp mem with ⟨there, _⟩ | ⟨_, later⟩
      · exact within _ there a rfl
      · exact ih (fun letter mem => form_ letter (List.mem_cons_of_mem _ mem)) later

theorem inferFirst_within
    (within : ∀ fact ∈ known, fact ∈ g.possible (g.productions.map Prod.fst)) :
    ∀ fact ∈ g.inferFirst known, fact ∈ g.possible (g.productions.map Prod.fst) := by
  intro fact mem
  -- A new fact is about the left-hand side of a production.
  obtain ⟨⟨X, right⟩, used, inferred⟩ := List.mem_flatMap.mp mem
  obtain ⟨x, first, rfl⟩ := List.mem_map.mp inferred
  refine mem_possible.mpr ⟨List.mem_map_of_mem used, ?_⟩
  intro letter same
  subst same
  -- Its letter comes from the right-hand side, or from a fact that was known.
  refine mem_terminals_of_firstOf ?_ (fun letter there => mem_terminals used there) first
  exact fun fact mem => (mem_possible.mp (within fact mem)).2

theorem first_sound : ∀ fact ∈ g.first, g.IsFirst [.nonterminal fact.1] fact.2 :=
  saturate_sound (fun _ => inferFirst_sound) fun _ mem => absurd mem List.not_mem_nil

theorem first_within : ∀ fact ∈ g.first, fact ∈ g.possible (g.productions.map Prod.fst) :=
  saturate_sound (fun _ => inferFirst_within) fun _ mem => absurd mem List.not_mem_nil

theorem first_closed (mem : (X, right) ∈ g.productions) (first : x ∈ firstOf g.first right) :
    (X, x) ∈ g.first := by
  -- The last round has added nothing, as there are only finitely many possible facts.
  have closed : ∀ fact ∈ g.inferFirst g.first, fact ∈ g.first := by
    refine saturate_closed (fun _ => inferFirst_within)
      (fun _ mem => absurd mem List.not_mem_nil) ?_
    exact List.length_filter_le _ _
  exact closed _ (List.mem_flatMap.mpr ⟨_, mem, List.mem_map.mpr ⟨x, first, rfl⟩⟩)

/-- Using a production adds nothing that was not to be found before. -/
theorem firstOf_expand (mem : (X, right) ∈ g.productions)
    (first : x ∈ firstOf g.first (right ++ back)) :
    x ∈ firstOf g.first (.nonterminal X :: back) := by
  rw [mem_firstOf_nonterminal]
  -- What is first comes from the right-hand side, or that vanishes.
  rcases mem_firstOf_append.mp first with ⟨there, some_⟩ | ⟨nullable, later⟩
  · exact .inl ⟨first_closed mem there, some_⟩
  · exact .inr ⟨first_closed mem nullable, later⟩

/-- Whatever comes first in a leftmost derivation is found. -/
theorem firstOf_leftmost {form rest : List (Symbol T g.cfg.NT)} {word : List T}
    (left : Leftmost g.cfg form word rest) (ended : word = [] → rest = []) :
    word.head? ∈ firstOf g.first form := by
  -- By induction on the leftmost derivation, back from its end.
  induction left with
  | refl form =>
    obtain rfl := ended rfl
    exact List.mem_singleton_self none
  | read later ih => exact List.mem_singleton_self _
  | expand mem later ih => exact firstOf_expand (mem_rules.mp mem) (ih ended)

/-- What is computed for a string is its `FIRST`. -/
theorem mem_firstOf_iff : x ∈ firstOf g.first form ↔ g.IsFirst form x := by
  constructor
  · exact firstOf_sound first_sound
  · intro first
    -- From a derivation to the set: a leftmost one reads the same first letter.
    cases x with
    | none =>
      have left := (@Leftmost.word_iff _ g.cfg form []).mpr first
      exact firstOf_leftmost left fun _ => rfl
    | some letter =>
      obtain ⟨back, derives⟩ := first
      obtain ⟨rest, left, _⟩ := @Leftmost.of_derives _ g.cfg form back [letter] derives
      exact firstOf_leftmost left nofun

end First

section Follow

theorem mem_followIn {first : Sets T N} {left : N} :
    (A, x) ∈ followIn first known left form ↔
      ∃ front back, form = front ++ .nonterminal A :: back ∧
        (x ∈ firstOf first back ∧ x.isSome ∨ none ∈ firstOf first back ∧ (left, x) ∈ known) := by
  induction form with
  | nil => simp [followIn]
  | cons symbol rest ih =>
    -- The nonterminal is the first symbol, or further back.
    have behind : (∃ front back, symbol :: rest = front ++ .nonterminal A :: back ∧
        (x ∈ firstOf first back ∧ x.isSome ∨ none ∈ firstOf first back ∧ (left, x) ∈ known)) ↔
      symbol = .nonterminal A ∧
        (x ∈ firstOf first rest ∧ x.isSome ∨ none ∈ firstOf first rest ∧ (left, x) ∈ known) ∨
      (A, x) ∈ followIn first known left rest := by
      rw [ih]
      constructor
      · intro found
        obtain ⟨front, back, whole, there⟩ := found
        cases front with
        | nil =>
          obtain ⟨rfl, rfl⟩ := List.cons_eq_cons.mp whole
          exact .inl ⟨rfl, there⟩
        | cons other front =>
          obtain ⟨rfl, rest_⟩ := List.cons_eq_cons.mp whole
          exact .inr ⟨front, back, rest_, there⟩
      · intro found
        rcases found with ⟨rfl, there⟩ | ⟨front, back, rfl, there⟩
        · exact ⟨[], rest, rfl, there⟩
        · exact ⟨symbol :: front, back, rfl, there⟩
    rw [behind]
    cases symbol with
    | terminal letter => simp [followIn]
    | nonterminal B =>
      rw [followIn, List.mem_append]
      refine or_congr_left ?_
      simp only [List.mem_flatMap, Symbol.nonterminal.injEq]
      constructor
      · intro found
        obtain ⟨one, there, mem⟩ := found
        cases one with
        | some letter =>
          obtain ⟨rfl, rfl⟩ := Prod.mk.inj (List.mem_singleton.mp mem)
          exact ⟨rfl, .inl ⟨there, rfl⟩⟩
        | none =>
          obtain ⟨other, known_, same⟩ := List.mem_map.mp mem
          obtain ⟨rfl, rfl⟩ := Prod.mk.inj same
          exact ⟨rfl, .inr ⟨there, mem_setOf.mp known_⟩⟩
      · intro found
        obtain ⟨rfl, ⟨there, some_⟩ | ⟨nullable, known_⟩⟩ := found
        · obtain ⟨letter, rfl⟩ := Option.isSome_iff_exists.mp some_
          exact ⟨_, there, List.mem_singleton_self _⟩
        · exact ⟨none, nullable, List.mem_map.mpr ⟨x, mem_setOf.mpr known_, rfl⟩⟩

theorem mem_inferFollow :
    (A, x) ∈ g.inferFollow known ↔ A = g.start ∧ x = none ∨
      ∃ X front back, (X, front ++ .nonterminal A :: back) ∈ g.productions ∧
        (x ∈ firstOf g.first back ∧ x.isSome ∨
          none ∈ firstOf g.first back ∧ (X, x) ∈ known) := by
  -- One round looks at every place where A stands on a right-hand side.
  rw [Grammar.inferFollow, List.mem_cons, Prod.mk.injEq, List.mem_flatMap]
  refine or_congr_right ?_
  constructor
  · intro found
    obtain ⟨⟨X, right⟩, mem, there⟩ := found
    obtain ⟨front, back, rfl, follows⟩ := mem_followIn.mp there
    exact ⟨X, front, back, mem, follows⟩
  · intro found
    obtain ⟨X, front, back, mem, follows⟩ := found
    exact ⟨_, mem, mem_followIn.mpr ⟨front, back, rfl, follows⟩⟩

theorem inferFollow_within
    (within : ∀ fact ∈ known, fact ∈ g.possible (g.start :: g.nonterminals)) :
    ∀ fact ∈ g.inferFollow known, fact ∈ g.possible (g.start :: g.nonterminals) := by
  intro ⟨A, x⟩ mem
  -- The start symbol and the end of the input are among the possible facts.
  rcases mem_inferFollow.mp mem with ⟨rfl, rfl⟩ | ⟨X, front, back, used, follows⟩
  · exact mem_possible.mpr ⟨List.mem_cons_self, nofun⟩
  · refine mem_possible.mpr ⟨List.mem_cons_of_mem _ (mem_nonterminals used (by simp)), ?_⟩
    -- A letter comes from what stands behind A, or from a fact that was known.
    intro letter same
    subst same
    rcases follows with ⟨first, _⟩ | ⟨_, known_⟩
    · refine mem_terminals_of_firstOf ?_ (fun letter there => mem_terminals used ?_) first
      · exact fun fact mem => (mem_possible.mp (first_within fact mem)).2
      · simp [there]
    · exact (mem_possible.mp (within _ known_)).2 letter rfl

theorem follow_closed
    (follows : A = g.start ∧ x = none ∨
      ∃ X front back, (X, front ++ .nonterminal A :: back) ∈ g.productions ∧
        (x ∈ firstOf g.first back ∧ x.isSome ∨
          none ∈ firstOf g.first back ∧ (X, x) ∈ g.follow)) : (A, x) ∈ g.follow := by
  -- The last round has added nothing, as there are only finitely many possible facts.
  have closed : ∀ fact ∈ g.inferFollow g.follow, fact ∈ g.follow := by
    refine saturate_closed (fun _ => inferFollow_within)
      (fun _ mem => absurd mem List.not_mem_nil) ?_
    exact List.length_filter_le _ _
  exact closed _ (mem_inferFollow.mpr follows)

omit [DecidableEq N] [DecidableEq T] in
/-- A symbol of two strings put together stands in one of them. -/
theorem stands {symbol : Symbol T N} {first second : List (Symbol T N)}
    (whole : front ++ symbol :: back = first ++ second) :
    (∃ between, first = front ++ symbol :: between ∧ back = between ++ second) ∨
      ∃ between, front = first ++ between ∧ second = between ++ symbol :: back := by
  -- The symbol stands in the first part or in the second one.
  rcases List.append_eq_append_iff.mp whole with ⟨between, rfl, tail⟩ | ⟨between, rfl, tail⟩
  · cases between with
    | nil => exact .inr ⟨[], by simp, by simpa using tail.symm⟩
    | cons other between =>
      obtain ⟨rfl, rfl⟩ := List.cons_eq_cons.mp tail
      exact .inl ⟨between, rfl, rfl⟩
  · exact .inr ⟨between, rfl, tail⟩

/-- Whatever comes first behind a nonterminal of a form is found, with `$` at the end. -/
theorem mem_follow_of_derives {front back : List (Symbol T g.cfg.NT)}
    (derived : g.cfg.Derives [.nonterminal g.start] (front ++ .nonterminal A :: back))
    (first : x ∈ firstOf g.first back) : (A, x) ∈ g.follow := by
  generalize whole : front ++ .nonterminal A :: back = form at derived
  induction derived generalizing front A back x with
  | refl =>
    cases front with
    | nil =>
      obtain ⟨same, rfl⟩ := List.cons_eq_cons.mp whole
      obtain rfl := Symbol.nonterminal.inj same
      exact follow_closed (.inl ⟨rfl, List.mem_singleton.mp first⟩)
    | cons symbol front => simp at whole
  | @tail middle form before last ih =>
    obtain ⟨⟨X, right⟩, mem, rewrites⟩ := last
    obtain ⟨front_, after, rfl, rfl⟩ := rewrites.exists_parts
    have used := mem_rules.mp mem
    simp only [List.append_assoc, List.singleton_append] at whole ih
    rcases stands whole with ⟨between, rfl, rfl⟩ | ⟨between, rfl, tail⟩
    · -- The nonterminal stands in front of the one that has been replaced.
      refine @ih A x front (between ++ .nonterminal X :: after) ?_ (by simp)
      rcases mem_firstOf_append.mp first with ⟨there, some_⟩ | ⟨nullable, later⟩
      · exact mem_firstOf_append.mpr (.inl ⟨there, some_⟩)
      · exact mem_firstOf_append.mpr (.inr ⟨nullable, firstOf_expand used later⟩)
    · rcases stands tail.symm with ⟨between_, rfl, rfl⟩ | ⟨between_, rfl, rfl⟩
      · -- It comes from the production that has been used.
        refine follow_closed (.inr ⟨X, between, between_, used, ?_⟩)
        rcases mem_firstOf_append.mp first with ⟨there, some_⟩ | ⟨nullable, later⟩
        · exact .inl ⟨there, some_⟩
        · exact .inr ⟨nullable, @ih X x front_ after later rfl⟩
      · -- It stands behind.
        exact @ih A x (front_ ++ .nonterminal X :: between_) back first (by simp)

/-- What a form becomes when a production is used and what stands at its back derives something. -/
theorem derives_used {f b right_ : List (Symbol T g.cfg.NT)}
    (derived : g.cfg.Derives [.nonterminal g.start] (f ++ .nonterminal X :: b))
    (used : (X, front ++ .nonterminal A :: back) ∈ g.productions)
    (becomes : g.cfg.Derives back right_) :
    g.cfg.Derives [.nonterminal g.start] ((f ++ front) ++ .nonterminal A :: (right_ ++ b)) := by
  -- The production is used where X stands, and then what stands behind A derives right_.
  have replaced := (produces used b).append_left f
  have later := (becomes.append_left (front ++ [.nonterminal A])).append_right b
  have later_ := later.append_left f
  simp only [List.append_assoc, List.cons_append, List.nil_append] at replaced later_ ⊢
  exact (derived.trans_produces replaced).trans later_

/-- Where all nonterminals can be reached, nothing else is found. -/
theorem follow_sound (reachable : ∀ production ∈ g.productions, g.Reachable production.1) :
    ∀ fact ∈ g.follow, g.IsFollow fact.1 fact.2 := by
  -- By the rounds: each fact that a round adds is true if those it comes from are.
  refine saturate_sound (fun known sound fact mem => ?_) fun _ mem => absurd mem List.not_mem_nil
  obtain ⟨A, x⟩ := fact
  rcases mem_inferFollow.mp mem with ⟨rfl, rfl⟩ | ⟨X, front, back, used, follows⟩
  -- The start symbol alone is a sentential form.
  · exact ⟨[], .refl _⟩
  · rcases follows with ⟨first, some_⟩ | ⟨nullable, known_⟩
    · obtain ⟨a, rfl⟩ := Option.isSome_iff_exists.mp some_
      -- X is reached, and behind A stands what begins with the letter.
      obtain ⟨f, b, derived⟩ := reachable _ used
      obtain ⟨rest, becomes⟩ := mem_firstOf_iff.mp first
      exact ⟨f ++ front, rest ++ b, derives_used derived used becomes⟩
    -- What stands behind A vanishes, so A is followed by what follows X.
    · have vanishes : g.cfg.Derives back [] := mem_firstOf_iff.mp nullable
      cases x with
      | none =>
        obtain ⟨f, derived⟩ := sound _ known_
        exact ⟨f ++ front, derives_used derived used vanishes⟩
      | some a =>
        obtain ⟨f, b, derived⟩ := sound _ known_
        exact ⟨f ++ front, b, derives_used derived used vanishes⟩

/-- Whatever can follow a nonterminal is found. -/
theorem follow_complete (follows : g.IsFollow A x) : (A, x) ∈ g.follow := by
  -- The end of the input, or a letter behind A, is first of what stands behind it.
  cases x with
  | none =>
    obtain ⟨front, derived⟩ := follows
    exact mem_follow_of_derives derived (List.mem_singleton_self none)
  | some a =>
    obtain ⟨front, back, derived⟩ := follows
    exact mem_follow_of_derives derived (List.mem_singleton_self (some a))

end Follow

/-- The computed sets are `FIRST` and, where all nonterminals can be reached, `FOLLOW`. -/
theorem sets_exact (g : Grammar T N) :
    (∀ form x, x ∈ firstOf g.first form ↔ g.IsFirst form x) ∧
      (∀ A x, g.IsFollow A x → (A, x) ∈ g.follow) ∧
      ((∀ production ∈ g.productions, g.Reachable production.1) →
        ∀ A x, (A, x) ∈ g.follow ↔ g.IsFollow A x) := by
  -- Both directions for the first sets; for the follow sets one needs productions in use.
  refine ⟨fun form x => mem_firstOf_iff, fun A x => follow_complete, fun reachable A x => ?_⟩
  exact ⟨follow_sound reachable (A, x), follow_complete⟩

end SysProg.Compilers.Predictive
