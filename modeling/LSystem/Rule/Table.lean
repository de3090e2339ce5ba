import LSystem.Rule.Compiled

namespace LSystem

/-!
# Rule tables

A rule can only replace modules of the signature of its strict predecessor.  A
table therefore keeps one bucket for each such signature.  Buckets are sorted by
signature, and the rules of a bucket by rank, most specific first; rules of
equal rank keep the order in which they were declared.
-/

/-- The rules for one signature, most specific first. -/
structure Bucket (V : Type) where
  signature : Signature
  rules : List (CompiledRule V)

/-- All rules of a grammar, ready for matching. -/
structure RuleTable (V : Type) where
  buckets : List (Bucket V)

/-- What reports say about a rule. -/
structure RuleSummary where
  index : Nat
  rank : Nat
  predecessors : Nat
  successors : Nat
  traits : List RuleTrait

variable {V : Type}

/-! ## Filing -/

/-- Puts a rule behind the rules that are at least as specific. -/
def Bucket.insertRanked (rule : CompiledRule V) : List (CompiledRule V) → List (CompiledRule V)
  | [] => [rule]
  | filed :: rest =>
      if rule.rank ≤ filed.rank then filed :: insertRanked rule rest
      else rule :: filed :: rest

namespace RuleTable

/-- Puts a rule into the bucket of its signature, which is opened if need be. -/
def fileInto (rule : CompiledRule V) : List (Bucket V) → List (Bucket V)
  | [] => [⟨rule.strict, [rule]⟩]
  | bucket :: rest =>
      if rule.strict = bucket.signature then
        { bucket with rules := Bucket.insertRanked rule bucket.rules } :: rest
      else if rule.strict.precedes bucket.signature then ⟨rule.strict, [rule]⟩ :: bucket :: rest
      else bucket :: fileInto rule rest

def empty : RuleTable V := ⟨[]⟩

/-- Adds a rule to the table. -/
def file (table : RuleTable V) (rule : CompiledRule V) : RuleTable V :=
  ⟨fileInto rule table.buckets⟩

/-- Checks rules in order, the first of which is rule number `index`. -/
def compileFrom (index : Nat) : List (Rule V) → Except ConfigurationError (List (CompiledRule V))
  | [] => .ok []
  | rule :: rest => do
      let compiled ← CompiledRule.compile index rule
      let following ← compileFrom (index + 1) rest
      .ok (compiled :: following)

/-- Files all rules of a grammar in order of declaration, or reports the first
fault of the first faulty one. -/
def ofRules (rules : List (Rule V)) : Except ConfigurationError (RuleTable V) :=
  (compileFrom 0 rules).map fun compiled => compiled.foldl file empty

/-! ## Looking into a table -/

/-- The number of rules. -/
def size (table : RuleTable V) : Nat := (table.buckets.map (·.rules.length)).foldr (· + ·) 0

def isEmpty (table : RuleTable V) : Bool := table.size == 0

/-- The rules for modules of one signature, most specific first. -/
def bucket? (table : RuleTable V) (signature : Signature) : Option (List (CompiledRule V)) :=
  (table.buckets.find? fun bucket => bucket.signature = signature).map (·.rules)

/-- A description of every rule, bucket by bucket. -/
def summaries (table : RuleTable V) : List (Signature × List RuleSummary) :=
  table.buckets.map fun bucket =>
    (bucket.signature, bucket.rules.map fun rule =>
      ⟨rule.index, rule.rank, rule.predecessorCount, rule.thresholds.length, rule.traits⟩)

end RuleTable
end LSystem
