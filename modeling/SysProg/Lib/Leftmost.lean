import Mathlib.Computability.ContextFreeGrammar

/-! Leftmost derivations of a context-free grammar, and that they are enough. -/

namespace SysProg

variable {T : Type*} {g : ContextFreeGrammar T}

/-- Deriving the leftmost symbol first, with the terminals that have been passed. -/
inductive Leftmost (g : ContextFreeGrammar T) :
    List (Symbol T g.NT) → List T → List (Symbol T g.NT) → Prop
  | refl (form : List (Symbol T g.NT)) : Leftmost g form [] form
  | read {letter : T} {form : List (Symbol T g.NT)} {word : List T}
    {rest : List (Symbol T g.NT)} (later : Leftmost g form word rest) :
    Leftmost g (.terminal letter :: form) (letter :: word) rest
  | expand {rule : ContextFreeRule T g.NT} {form : List (Symbol T g.NT)} {word : List T}
    {rest : List (Symbol T g.NT)} (mem : rule ∈ g.rules)
    (later : Leftmost g (rule.output ++ form) word rest) :
    Leftmost g (.nonterminal rule.input :: form) word rest

namespace Leftmost

variable {form middle rest back : List (Symbol T g.NT)} {word word_ : List T}

/-- Leftmost derivations are derivations. -/
theorem derives (left : Leftmost g form word rest) :
    g.Derives form (word.map .terminal ++ rest) := by
  -- By induction on the leftmost derivation, which expands what stands in front.
  induction left with
  | refl form => exact .refl form
  | read later ih => exact ih.append_left [_]
  | @expand rule form word rest mem later ih =>
    have replaced : g.Produces (.nonterminal rule.input :: form) (rule.output ++ form) :=
      ⟨rule, mem, .head form⟩
    exact replaced.trans_derives ih

theorem trans (first : Leftmost g form word middle) (second : Leftmost g middle word_ rest) :
    Leftmost g form (word ++ word_) rest := by
  -- By induction on the first derivation.
  induction first with
  | refl form => exact second
  | read later ih => exact .read (ih second)
  | expand mem later ih => exact .expand mem (ih second)

/-- A replacement anywhere can be put off until the symbol is the leftmost one. -/
theorem of_rewrites {rule : ContextFreeRule T g.NT} {front after : List (Symbol T g.NT)}
    (mem : rule ∈ g.rules) (left : Leftmost g (front ++ (rule.output ++ after)) word back) :
    ∃ rest, Leftmost g (front ++ .nonterminal rule.input :: after) word rest ∧
      g.Derives rest back ∧ (back = [] → rest = []) := by
  generalize whole : front ++ (rule.output ++ after) = form at left
  induction left generalizing front with
  | refl form =>
    -- Nothing is derived on the left, so that the replacement can wait.
    have replaced : g.Produces (front ++ .nonterminal rule.input :: after) form := by
      rw [← whole]
      exact ContextFreeGrammar.Produces.append_left ⟨rule, mem, .head after⟩ front
    cases front with
    | nil => exact ⟨form, .expand mem (whole ▸ .refl _), .refl form, id⟩
    | cons symbol front =>
      refine ⟨_, .refl _, replaced.single, fun empty => ?_⟩
      rw [empty] at whole
      simp at whole
  | @read letter form word back later ih =>
    cases front with
    | nil => exact ⟨back, .expand mem (whole ▸ .read later), .refl back, id⟩
    | cons symbol front =>
      obtain ⟨rfl, same⟩ := List.cons_eq_cons.mp whole
      obtain ⟨rest, reads, derives, ended⟩ := ih same
      exact ⟨rest, .read reads, derives, ended⟩
  | @expand other form word back mem_ later ih =>
    cases front with
    | nil => exact ⟨back, .expand mem (whole ▸ .expand mem_ later), .refl back, id⟩
    | cons symbol front =>
      obtain ⟨rfl, same⟩ := List.cons_eq_cons.mp whole
      have whole_ : (other.output ++ front) ++ (rule.output ++ after) = other.output ++ form := by
        rw [← same, List.append_assoc]
        rfl
      obtain ⟨rest, reads, derives, ended⟩ := ih whole_
      rw [List.append_assoc] at reads
      exact ⟨rest, .expand mem_ reads, derives, ended⟩

theorem of_produces (first : g.Produces form middle) (left : Leftmost g middle word back) :
    ∃ rest, Leftmost g form word rest ∧ g.Derives rest back ∧ (back = [] → rest = []) := by
  obtain ⟨rule, mem, rewrites⟩ := first
  -- The rule is applied somewhere in the form, maybe behind its first nonterminal.
  obtain ⟨front, after, rfl, rfl⟩ := rewrites.exists_parts
  rw [List.append_assoc] at left
  rw [List.append_assoc]
  exact of_rewrites mem left

/-- Terminals are passed as they are. -/
theorem terminals (word : List T) (rest : List (Symbol T g.NT)) :
    Leftmost g (word.map .terminal ++ rest) word rest := by
  induction word with
  | nil => exact .refl rest
  | cons letter word ih => exact .read ih

/-- Whatever terminals a derivation puts in front, a leftmost derivation puts them there. -/
theorem of_derives (derived : g.Derives form (word.map .terminal ++ back)) :
    ∃ rest, Leftmost g form word rest ∧ g.Derives rest back ∧ (back = [] → rest = []) := by
  -- By induction on the derivation from its first step.
  induction derived using Relation.ReflTransGen.head_induction_on with
  | refl => exact ⟨back, terminals word back, .refl back, id⟩
  | head first later ih =>
    obtain ⟨middle, reads, derives, ended⟩ := ih
    obtain ⟨rest, reads_, derives_, ended_⟩ := of_produces first reads
    exact ⟨rest, reads_, derives_.trans derives, fun empty => ended_ (ended empty)⟩

/-- The words that a form derives are those that leftmost derivations read to the end. -/
theorem word_iff : Leftmost g form word [] ↔ g.Derives form (word.map .terminal) := by
  -- A word without a rest is derived whole.
  constructor
  · intro left
    simpa using left.derives
  · intro derived
    obtain ⟨rest, reads, _, ended⟩ := @of_derives _ g form [] word (by simpa using derived)
    rwa [ended rfl] at reads

theorem language_iff : Leftmost g [.nonterminal g.initial] word [] ↔ word ∈ g.language := by
  rw [word_iff]
  rfl

end Leftmost

end SysProg
