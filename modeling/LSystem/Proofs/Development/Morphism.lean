import LSystem.Proofs.Development.Atomicity
import LSystem.Proofs.Development.Renewal
import LSystem.Proofs.Rule.ContextFree

namespace LSystem

/-!
# Context-free systems are morphisms

Under context-free rules one generation after the other is the same substitution over and
over.  So a part of the start develops as it would have done alone: next to other parts,
inside a branch, with other symbols ignored and with another source of chance, which is
never asked.
-/

variable {V σ : Type}

namespace Development

/-! ## One pass -/

/-- A pass in one go makes the generation that a rewriting makes. -/
theorem generate_of_nextGeneration {system : Development V σ} {written : Forest V}
    {chance : Chance}
    (rewritten : (system.current.nextGeneration (fun _ => system.rules) system.ignore).outcome
      system.chance = (.ok written, chance)) :
    ∃ after, system.generate = (.ok (), after) ∧ after.current = written ∧
      after.chance = chance := by
  have constant : tableInForce system.rules [.take (.chunk (Forest.size system.current))] =
      fun _ => system.rules := by
    funext step
    exact ite_self system.rules
  have meets := meetsOutlook_drive_beginPass system
    [.take (.chunk (Forest.size system.current))]
  have ended := system.isGenerating_generate
  rw [constant, rewritten] at meets
  rw [← generate_eq_drive] at ended ⊢
  rcases driven : system.beginPass.drive [.take (.chunk (Forest.size system.current))] with
    ⟨fault | counts, after⟩
  · rw [driven] at meets
    cases meets
  · rw [driven] at ended
    have made := nextGeneration_eq_ok driven ended
    rw [constant, rewritten] at made
    cases made
    exact ⟨after, rfl, rfl, rfl⟩

/-! ## Several passes -/

section ContextFree

variable {table : RuleTable V} (free : table.ContextFree)

include free

theorem generate_of_contextFree {system : Development V σ} (inForce : system.rules = table) :
    ∃ after, system.generate = (.ok (), after) ∧
      after.current = system.current.substitute table.offspring ∧
      after.chance = system.chance ∧ after.rules = table := by
  have rewritten := free.outcome_rewrite_eq system.ignore [] [] 0 system.current system.chance
  rw [← inForce] at rewritten ⊢
  rcases generate_of_nextGeneration rewritten with ⟨after, generated, current, chance⟩
  have same : SameSetup system (Operation.generate.perform system).2 :=
    sameSetup_of_generates rfl system
  change SameSetup system system.generate.2 at same
  rw [generated] at same
  exact ⟨after, generated, current, chance, same.rules⟩

theorem generateMany_of_contextFree {system : Development V σ} (inForce : system.rules = table)
    (passes : Nat) :
    ∃ after, system.generateMany passes = (.ok (), after) ∧
      after.current = (Forest.substitute table.offspring)^[passes] system.current ∧
      after.generation = system.generation + passes ∧ after.chance = system.chance := by
  induction passes generalizing system with
  | zero => exact ⟨system, rfl, rfl, rfl, rfl⟩
  | succ passes inductionHypothesis =>
      rcases generate_of_contextFree free inForce with
        ⟨next, generated, current, chance, rules⟩
      rcases inductionHypothesis rules with ⟨after, onward, reached, counted, undrawn⟩
      refine ⟨after, ?_, ?_, ?_, undrawn.trans chance⟩
      · rw [generateMany, generated]
        exact onward
      · rw [reached, current, Function.iterate_succ_apply]
      · rw [counted, generation_of_generate generated]
        omega

end ContextFree

/-! ## Starts -/

/-- Rules develop a start into a certain forest in a number of generations.  They do so
whichever symbols are ignored, whatever the host provides, and without any draw. -/
def Yields (rules : List (Rule V)) (generations : Nat) (start result : Forest V) : Prop :=
  ∀ (σ : Type) (ignore : List Symbol) (actions : Actions V σ) (host : σ) (chance : Chance),
    ∃ first after, create start rules ignore actions host chance = .ok first ∧
      first.generateMany generations = (.ok (), after) ∧
      after.current = result ∧ after.generation = generations ∧ after.chance = chance

theorem yields_of_contextFree {rules : List (Rule V)} {table : RuleTable V}
    (accepted : RuleTable.ofRules rules = .ok table)
    (free : ∀ rule ∈ rules, rule.IsContextFree) {start : Forest V} (nonempty : start ≠ [])
    (generations : Nat) :
    Yields rules generations start
      ((Forest.substitute table.offspring)^[generations] start) := by
  intro σ ignore actions host chance
  have created : create start rules ignore actions host chance =
      .ok (fresh start table ignore actions host chance) := by
    rw [create, accepted]
    exact if_neg (mt List.isEmpty_iff.mp nonempty)
  have inForce : (fresh start table ignore actions host chance).rules = table := rfl
  rcases generateMany_of_contextFree (RuleTable.contextFree_ofRules accepted free) inForce
    generations with ⟨after, generated, reached, counted, undrawn⟩
  exact ⟨_, after, created, generated, reached, counted.trans (Nat.zero_add _), undrawn⟩

/-- Context-free rules develop what stands side by side side by side, and what stands in a
branch inside a branch. -/
theorem contextFree_morphism {rules : List (Rule V)} {table : RuleTable V}
    (accepted : RuleTable.ofRules rules = .ok table)
    (free : ∀ rule ∈ rules, rule.IsContextFree) {first second : Forest V}
    (someFirst : first ≠ []) (someSecond : second ≠ []) (generations : Nat) :
    ∃ fromFirst fromSecond,
      Yields rules generations first fromFirst ∧
      Yields rules generations second fromSecond ∧
      Yields rules generations (first ++ second) (fromFirst ++ fromSecond) ∧
      Yields rules generations [.branch first] [.branch fromFirst] := by
  have yields {start : Forest V} (nonempty : start ≠ []) :=
    yields_of_contextFree accepted free nonempty generations
  refine ⟨_, _, yields someFirst, yields someSecond, ?_, ?_⟩
  · rw [← Forest.iterate_substitute_append]
    exact yields (List.append_ne_nil_of_left_ne_nil someFirst second)
  · rw [← Forest.iterate_substitute_branch]
    exact yields (List.cons_ne_nil _ _)

/-- An apex and an old side shoot, next to each other, whose rules have conditions, open
branches and make inert modules. -/
theorem growth_morphism :
    (RuleTable.ofRules Catalog.growth.rules).isOk = true ∧
      (∀ rule ∈ Catalog.growth.rules, rule.IsContextFree) ∧
      ∃ fromApex fromShoot,
        Yields Catalog.growth.rules 6 Catalog.growth.start fromApex ∧
        Yields Catalog.growth.rules 6 [Catalog.single "S" [1.0]] fromShoot ∧
        Yields Catalog.growth.rules 6 (Catalog.growth.start ++ [Catalog.single "S" [1.0]])
          (fromApex ++ fromShoot) ∧
        Yields Catalog.growth.rules 6 [.branch Catalog.growth.start] [.branch fromApex] := by
  have accepted : (RuleTable.ofRules Catalog.growth.rules).isOk = true := by decide
  have free : ∀ rule ∈ Catalog.growth.rules, rule.IsContextFree := by decide
  refine ⟨accepted, free, ?_⟩
  rcases compiled : RuleTable.ofRules Catalog.growth.rules with error | table
  · rw [compiled] at accepted
    cases accepted
  · exact contextFree_morphism compiled free (List.cons_ne_nil _ _) (List.cons_ne_nil _ _) 6

end Development
end LSystem
