import LSystem.Proofs.Forest.Substitution
import LSystem.Proofs.Generation.Rewriting
import LSystem.Proofs.Rule.Chain
import LSystem.Proofs.Rule.Selection

namespace LSystem

/-!
# Context-free rules

A rule without context predecessors looks at nothing but the module that it is to replace,
and one with a single successor has nothing to choose.  Main statement: a table of such
rules rewrites a forest by a substitution.  The surroundings of a module, the symbols to
be ignored and the source of chance play no part in it, and no number is drawn.
-/

variable {V : Type}

/-- A rule that asks for one module and makes one production, possibly under a condition. -/
def Rule.IsContextFree (rule : Rule V) : Prop :=
  rule.predecessors.length = 1 ∧ rule.successors.length = 1

instance (rule : Rule V) : Decidable rule.IsContextFree :=
  inferInstanceAs (Decidable (_ ∧ _))

namespace CompiledRule

/-- What is left of a context-free rule after the checks. -/
structure IsContextFree (rule : CompiledRule V) : Prop where
  context_eq : rule.context = []
  thresholds_eq : ∃ only, rule.thresholds = [only]

variable {rule : CompiledRule V}

theorem Checks.isContextFree {index : Nat} {declared : Rule V}
    (checks : Checks index declared rule) (free : declared.IsContextFree) :
    rule.IsContextFree where
  context_eq := by
    have count := checks.predecessorCount_eq
    rw [free.1, predecessorCount] at count
    exact List.length_eq_zero_iff.mp (Nat.succ.inj count)
  thresholds_eq := by
    rw [← List.length_eq_one_iff, checks.length_thresholds]
    exact free.2

namespace IsContextFree

/-- The rule matches a module of its signature just if it admits its arguments. -/
theorem matchAt_eq (free : rule.IsContextFree) {letter : Module V}
    (strict : letter.signature = rule.strict) (ignore : List Symbol) (cursor : Cursor V) :
    (rule.matchAt ignore letter cursor).1 =
      if rule.admits letter.arguments then some letter.arguments else none := by
  rw [matchAt_of_strict strict, free.context_eq, follow, Option.map_some, List.append_nil]
  rfl

/-- The productions of the rule are a single one, and it is made without a draw. -/
theorem produce_eq (free : rule.IsContextFree) (arguments : List V) (chance : Chance) :
    rule.produce arguments chance =
      (.ok (rule.thresholds.flatMap (·.production arguments)), chance) := by
  rcases free.thresholds_eq with ⟨only, single⟩
  rw [produce, single, List.flatMap_singleton]

end IsContextFree
end CompiledRule

namespace RuleTable

/-- What becomes of a module under context-free rules: the production of the first rule
that admits its arguments. -/
def offspring (table : RuleTable V) (letter : Module V) : Forest V :=
  if letter.isInert then []
  else
    match ((table.bucket? letter.signature).getD []).find? (·.admits letter.arguments) with
    | none => [.leaf letter]
    | some rule => rule.thresholds.flatMap (·.production letter.arguments)

/-- Every rule of the table is context-free. -/
def ContextFree (table : RuleTable V) : Prop :=
  ∀ signature, ∀ rule ∈ (table.bucket? signature).getD [],
    rule.strict = signature ∧ rule.IsContextFree

theorem contextFree_ofRules {rules : List (Rule V)} {table : RuleTable V}
    (accepted : ofRules rules = .ok table) (free : ∀ rule ∈ rules, rule.IsContextFree) :
    table.ContextFree := by
  intro signature compiled member
  rcases (mem_bucket?_iff accepted).mp member with ⟨rule, declared, compiles, strict⟩
  have checks := CompiledRule.compile_eq_ok compiles
  exact ⟨strict, checks.isContextFree (free rule (List.mem_of_getElem? declared))⟩

namespace ContextFree

variable {table : RuleTable V} (free : table.ContextFree)

include free

/-- The firing rule is the first one that admits the arguments of the module. -/
theorem firing?_eq (ignore : List Symbol) (letter : Module V) (place : Place V) :
    table.firing? ignore letter place =
      (((table.bucket? letter.signature).getD []).find? (·.admits letter.arguments)).map
        (·, letter.arguments) := by
  unfold firing?
  have known := free letter.signature
  generalize (table.bucket? letter.signature).getD [] = rules at known
  induction rules with
  | nil => rfl
  | cons rule rest inductionHypothesis =>
      rcases known rule List.mem_cons_self with ⟨strict, isFree⟩
      rw [List.findSome?_cons, List.find?_cons, isFree.matchAt_eq strict.symm,
        inductionHypothesis fun other member => known other (List.mem_cons_of_mem rule member)]
      cases rule.admits letter.arguments <;> rfl

theorem outcome_replacement_eq (ignore : List Symbol) (letter : Module V) (place : Place V)
    (chance : Chance) :
    (table.replacement ignore letter place).outcome chance =
      (.ok (table.offspring letter), chance) := by
  rw [outcome_replacement, offspring]
  split
  · rfl
  · have derived := table.derive_eq_firing? ignore letter (.on place) chance
    rw [free.firing?_eq] at derived
    cases chosen : ((table.bucket? letter.signature).getD []).find?
        (·.admits letter.arguments) with
    | none =>
        rw [chosen] at derived
        rw [(Prod.mk.inj derived).1, (Prod.mk.inj derived).2]
        rfl
    | some rule =>
        have isFree := (free letter.signature rule (List.mem_of_find?_eq_some chosen)).2
        rw [chosen, Option.map_some] at derived
        dsimp only at derived
        rw [isFree.produce_eq] at derived
        rw [(Prod.mk.inj derived).1, (Prod.mk.inj derived).2]
        rfl

/-- Context-free rules rewrite a forest by a substitution, wherever it stands. -/
theorem outcome_rewrite_eq (ignore : List Symbol) (enclosing : List (Level V))
    (left : List (Element V)) (step : Nat) (forest : Forest V) (chance : Chance) :
    (Forest.rewrite (fun _ => table) ignore enclosing left step forest).outcome chance =
      (.ok (forest.substitute table.offspring), chance) := by
  induction forest using Forest.induction generalizing enclosing left step with
  | nil => rfl
  | leaf first rest inRest =>
      simp [Forest.rewrite, Element.rewrite, Site.replacement, free.outcome_replacement_eq, inRest]
  | branch contents rest inContents inRest =>
      simp [Forest.rewrite, Element.rewrite, inContents, inRest]

end ContextFree
end RuleTable
end LSystem
