import SysProg.Lib.Loop
import SysProg.Lib.Saturation
import Mathlib.Computability.ContextFreeGrammar

/-! Predictive parsing: the sets `FIRST`, `FOLLOW` and `SELECT`, the table, and the parser. -/

namespace SysProg.Compilers.Predictive

/-- A grammar `G = (T, N, P, S)`, with its productions in a list. -/
structure Grammar (T N : Type) where
  /-- `S`. -/
  start : N
  /-- `P`: a left-hand side and a right-hand side for each production. -/
  productions : List (N × List (Symbol T N))

/-- What is known to be in the set of a nonterminal, where `none` stands for `ε` or `$`. -/
abbrev Sets (T N : Type) := List (N × Option T)

variable {T N : Type} [DecidableEq T] [DecidableEq N]

/-- The language of the grammar is that of a context-free grammar. -/
abbrev Grammar.cfg (g : Grammar T N) : ContextFreeGrammar T where
  NT := N
  initial := g.start
  rules := (g.productions.map fun production => ⟨production.1, production.2⟩).toFinset

/-- What is known to be in the set of this nonterminal. -/
def setOf (known : Sets T N) (X : N) : List (Option T) :=
  (known.filter fun fact => fact.1 = X).map Prod.snd

/-- `FIRST` of a string, from what is known of the nonterminals. -/
def firstOf (known : Sets T N) : List (Symbol T N) → List (Option T)
  | [] => [none]
  | .terminal a :: _ => [some a]
  | .nonterminal X :: rest =>
    -- The sets of later symbols only count when all symbols before them are nullable.
    (setOf known X).filter Option.isSome ++
      if none ∈ setOf known X then firstOf known rest else []

/-- The terminals of the productions. -/
def Grammar.terminals (g : Grammar T N) : List T :=
  (g.productions.flatMap Prod.snd).filterMap fun
    | .terminal a => some a
    | .nonterminal _ => none

/-- The nonterminals on the right-hand sides of the productions. -/
def Grammar.nonterminals (g : Grammar T N) : List N :=
  (g.productions.flatMap Prod.snd).filterMap fun
    | .terminal _ => none
    | .nonterminal X => some X

/-- All that can be in the sets of these nonterminals. -/
def Grammar.possible (g : Grammar T N) (nonterminals : List N) : Sets T N :=
  nonterminals.flatMap fun X => (none :: g.terminals.map some).map fun a => (X, a)

/-- The rules for `FIRST`, applied once to each production. -/
def Grammar.inferFirst (g : Grammar T N) (known : Sets T N) : Sets T N :=
  g.productions.flatMap fun production =>
    (firstOf known production.2).map fun a => (production.1, a)

/-- `FIRST` of the nonterminals. -/
def Grammar.first (g : Grammar T N) : Sets T N :=
  saturate g.inferFirst (g.possible (g.productions.map Prod.fst)).length []

/-- What can follow the nonterminals of a right-hand side, for a production of `left`. -/
def followIn (first known : Sets T N) (left : N) : List (Symbol T N) → Sets T N
  | [] => []
  | .terminal _ :: rest => followIn first known left rest
  | .nonterminal B :: rest =>
    ((firstOf first rest).flatMap fun
      | some a => [(B, some a)]
      | none => (setOf known left).map fun a => (B, a)) ++ followIn first known left rest

/-- The rules for `FOLLOW`, applied once. -/
def Grammar.inferFollow (g : Grammar T N) (known : Sets T N) : Sets T N :=
  (g.start, none) :: g.productions.flatMap fun production =>
    followIn g.first known production.1 production.2

/-- `FOLLOW` of the nonterminals. -/
def Grammar.follow (g : Grammar T N) : Sets T N :=
  saturate g.inferFollow (g.possible (g.start :: g.nonterminals)).length []

/-- `SELECT` of a production: the inputs for which it can be used, with `none` for `$`. -/
def Grammar.select (g : Grammar T N) (production : N × List (Symbol T N)) : List (Option T) :=
  let first := firstOf g.first production.2
  if none ∈ first then first.filter Option.isSome ++ setOf g.follow production.1 else first

/-- The entry of the table, with `none` for `raiseError`. -/
def Grammar.M (g : Grammar T N) (X : N) (a : Option T) : Option (List (Symbol T N)) :=
  (g.productions.find? fun production => production.1 = X ∧ a ∈ g.select production).map Prod.snd

/-- No entry of the table has more than one production. -/
def Grammar.IsLL1 (g : Grammar T N) : Prop :=
  ∀ one ∈ g.productions, ∀ other ∈ g.productions, one.1 = other.1 → one ≠ other →
    ∀ a ∈ g.select one, a ∉ g.select other

instance (g : Grammar T N) : Decidable g.IsLL1 :=
  inferInstanceAs (Decidable (∀ one ∈ g.productions, ∀ other ∈ g.productions, _))

/-- The variables of the parser. -/
structure Parsing (T N : Type) where
  /-- The stack, without the `$` at the bottom. -/
  stack : List (Symbol T N)
  /-- The tokens that are left, of which `a` is the first one. -/
  tokens : List T
  /-- `error` has been called. -/
  failed : Bool
  deriving DecidableEq

/-- The token `a`, with `none` for `$`. -/
def Parsing.a (state : Parsing T N) : Option T := state.tokens.head?

/-- The loop of the parser, as long as the top of the stack is not `$`. -/
def Grammar.parser (g : Grammar T N) : Loop (Parsing T N) where
  more state := !state.failed && !state.stack.isEmpty
  body state :=
    match state.stack with
    | [] => none
    | .terminal X :: stack =>
      if some X = state.a then some { state with stack, tokens := state.tokens.tail }
      else some { state with failed := true }
    | .nonterminal X :: stack =>
      match g.M X state.a with
      | none => some { state with failed := true }
      | some right => some { state with stack := right ++ stack }

/-- The start symbol is on the stack. -/
def Grammar.parse (g : Grammar T N) (tokens : List T) : Parsing T N :=
  ⟨[.nonterminal g.start], tokens, false⟩

section Meaning

variable (g : Grammar T N)

/-- What `FIRST` of a string is for. -/
def Grammar.IsFirst (form : List (Symbol T N)) : Option T → Prop
  | none => g.cfg.Derives form []
  | some a => ∃ rest, g.cfg.Derives form (.terminal a :: rest)

/-- What `FOLLOW` of a nonterminal is for. -/
def Grammar.IsFollow (A : N) : Option T → Prop
  | none => ∃ front, g.cfg.Derives [.nonterminal g.start] (front ++ [.nonterminal A])
  | some a => ∃ front back,
    g.cfg.Derives [.nonterminal g.start] (front ++ .nonterminal A :: .terminal a :: back)

/-- The nonterminal occurs in a form that the start symbol derives. -/
def Grammar.Reachable (A : N) : Prop :=
  ∃ front back, g.cfg.Derives [.nonterminal g.start] (front ++ .nonterminal A :: back)

end Meaning

end SysProg.Compilers.Predictive
