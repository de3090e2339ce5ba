import LSystem.Cursor.Basic
import LSystem.Random.Chance
import LSystem.Rule.Table

namespace LSystem

/-!
# Matching

A rule is matched against the module that a cursor has just produced.  Its
context predecessors are looked for one after another, each from where the one
before was found.  Every attempt starts by putting the context back to the
module, so one attempt leaves no trace in the next.
-/

namespace CompiledRule

variable {V : Type}

/-- Looks for context predecessors one after another and gathers the arguments
of the modules found.  The first one that is missing ends the search. -/
def follow (ignore : List Symbol) :
    List ContextPredecessor → Cursor V → Option (List V) × Cursor V
  | [], cursor => (some [], cursor)
  | predecessor :: rest, cursor =>
      match cursor.navigate ignore predecessor.direction with
      | (none, cursor) => (none, cursor)
      | (some letter, cursor) =>
          if letter.signature = predecessor.signature then
            let (arguments, cursor) := follow ignore rest cursor
            (arguments.map (letter.arguments ++ ·), cursor)
          else (none, cursor)

/-- Whether the condition, if there is one, holds of the gathered arguments. -/
def admits (rule : CompiledRule V) (arguments : List V) : Bool :=
  match rule.condition with
  | none => true
  | some condition => condition arguments

/-- Matches the rule against the module just produced by the cursor.  A match
gives the arguments of all matched modules in the order of the predecessors. -/
def matchAt (ignore : List Symbol) (rule : CompiledRule V) (letter : Module V)
    (cursor : Cursor V) : Option (List V) × Cursor V :=
  let cursor := cursor.resetContext
  if letter.signature = rule.strict then
    let (gathered, cursor) := follow ignore rule.context cursor
    let arguments := gathered.map (letter.arguments ++ ·)
    (arguments.filter rule.admits, cursor)
  else (none, cursor)

/-- The replacement that the rule makes from the gathered arguments.  With one
successor there is nothing to choose and no number is drawn.  Otherwise the
first successor whose running sum exceeds the draw is chosen. -/
def produce (rule : CompiledRule V) (arguments : List V) (chance : Chance) :
    Except ConfigurationError (Forest V) × Chance :=
  match rule.thresholds with
  | [only] => (.ok (only.production arguments), chance)
  | several =>
      let (draw, chance) := chance.draw
      match several.find? fun threshold => draw < threshold.cumulative with
      | some threshold => (.ok (threshold.production arguments), chance)
      | none => (.error (.inconsistentThresholds rule.index draw), chance)

end CompiledRule

/-- What has become of a module: its replacement, nothing if no rule applies, or
an error; and where that has left the cursor and the chance. -/
structure Derivation (V : Type) where
  outcome : Except ConfigurationError (Option (Forest V))
  cursor : Cursor V
  chance : Chance

namespace RuleTable

variable {V : Type}

/-- Lets the first rule that matches make the replacement. -/
def tryRules (ignore : List Symbol) (letter : Module V) (cursor : Cursor V) (chance : Chance) :
    List (CompiledRule V) → Derivation V
  | [] => ⟨.ok none, cursor, chance⟩
  | rule :: rest =>
      match rule.matchAt ignore letter cursor with
      | (none, cursor) => tryRules ignore letter cursor chance rest
      | (some arguments, cursor) =>
          let (outcome, chance) := rule.produce arguments chance
          ⟨outcome.map some, cursor, chance⟩

/-- Derives the replacement of the module just produced by the cursor. -/
def derive (table : RuleTable V) (ignore : List Symbol) (letter : Module V) (cursor : Cursor V)
    (chance : Chance) : Derivation V :=
  tryRules ignore letter cursor chance ((table.bucket? letter.signature).getD [])

end RuleTable
end LSystem
