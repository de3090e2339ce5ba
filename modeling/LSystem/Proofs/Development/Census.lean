import LSystem.Proofs.Development.Morphism
import LSystem.Proofs.Development.Reports

namespace LSystem

/-!
# Counts under context-free rules

Whether a context-free rule applies to a module does not depend on where the module stands.
What a pass reports, and how many modules of which kind the next generation has, can
therefore be told from a census of the modules that there are.  Main statement: such a pass
never fails, and its report is the one that the census gives.
-/

variable {V σ : Type}

/-! ## What a substitution counts up to -/

namespace Forest

@[simp]
theorem branches_append (first second : Forest V) :
    branches (first ++ second) = branches first + branches second := by
  induction first with
  | nil => simp
  | cons element rest inductionHypothesis => simp [inductionHypothesis, Nat.add_assoc]

variable (image : Module V → Forest V)

/-- The modules after a substitution are those of the images, in the same order. -/
@[simp]
theorem leaves_substitute (forest : Forest V) :
    leaves (forest.substitute image) =
      (leaves forest).flatMap fun letter => leaves (image letter) := by
  induction forest using Forest.induction with
  | nil => rfl
  | leaf first rest inRest => simp [inRest]
  | branch contents rest inContents inRest => simp [inContents, inRest]

/-- A substitution keeps the branches and adds those of the images. -/
theorem branches_substitute (forest : Forest V) :
    branches (forest.substitute image) =
      branches forest + ((leaves forest).map fun letter => branches (image letter)).sum := by
  induction forest using Forest.induction with
  | nil => rfl
  | leaf first rest inRest =>
      simp [inRest]
      omega
  | branch contents rest inContents inRest =>
      simp [inContents, inRest]
      omega

end Forest

/-! ## What a pass counts -/

namespace RuleTable

/-- Whether a module has a rule among those for its signature that admits its arguments. -/
def hasOffspring (table : RuleTable V) (letter : Module V) : Bool :=
  ((table.bucket? letter.signature).getD []).any (·.admits letter.arguments)

/-- The counts of a pass with context-free rules. -/
def census (table : RuleTable V) (forest : Forest V) : PassTally where
  visited := Forest.size forest
  replaced := (Forest.leaves forest).countP fun letter =>
    !letter.isInert && table.hasOffspring letter
  copied := (Forest.leaves forest).countP fun letter =>
    !letter.isInert && !table.hasOffspring letter
  dropped := (Forest.leaves forest).countP (·.isInert)
  moduleCount := Forest.size (forest.substitute table.offspring)

namespace ContextFree

variable {table : RuleTable V} (free : table.ContextFree)

include free

/-- Where a module stands does not matter. -/
theorem hasRule_eq (ignore : List Symbol) (site : Site V) :
    site.hasRule (fun _ => table) ignore = table.hasOffspring site.letter := by
  rw [Bool.eq_iff_iff, Site.hasRule, hasOffspring, List.any_eq_true, List.any_eq_true]
  apply exists_congr
  intro rule
  apply and_congr_right
  intro member
  rcases free site.letter.signature rule member with ⟨strict, isFree⟩
  rw [isFree.matchAt_eq strict.symm]
  cases rule.admits site.letter.arguments <;> exact Iff.rfl

theorem countP_allSites (ignore : List Symbol) (forest : Forest V) :
    forest.allSites.countP (·.isReplaced (fun _ => table) ignore) =
        (table.census forest).replaced ∧
      forest.allSites.countP (·.isCopied (fun _ => table) ignore) =
        (table.census forest).copied := by
  have letters : forest.allSites.map (·.letter) = Forest.leaves forest :=
    Forest.letters_sites [] [] 0 forest
  rw [census, ← letters, List.countP_map, List.countP_map]
  constructor
  · congr
    funext site
    rw [Site.isReplaced, free.hasRule_eq]
    rfl
  · congr
    funext site
    rw [Site.isCopied, free.hasRule_eq]
    rfl

/-- Counters that balance over the next generation are those of the census. -/
theorem eq_census {ignore : List Symbol} {forest : Forest V} {chance : Chance}
    {tally : PassTally} (balances : tally.Balances (fun _ => table) ignore forest
      (forest.substitute table.offspring) chance) : tally = table.census forest := by
  rcases free.countP_allSites ignore forest with ⟨replaced, copied⟩
  rw [PassTally.mk.injEq]
  exact ⟨balances.visited, balances.replaced.trans replaced, balances.copied.trans copied,
    balances.dropped, balances.moduleCount⟩

end ContextFree
end RuleTable

namespace Development

/-- What a pass with context-free rules leads to. -/
structure CountsUp (table : RuleTable V) (system after : Development V σ) : Prop where
  current : after.current = system.current.substitute table.offspring
  rules : after.rules = table
  generation : after.generation = system.generation + 1
  report : after.lastPass = some ⟨system.generation + 1, table.census system.current⟩
  chance : after.chance = system.chance

/-- A pass with context-free rules never fails, makes no draw, and reports the census. -/
theorem countsUp_generate {table : RuleTable V} (free : table.ContextFree)
    {system : Development V σ} (inForce : system.rules = table) :
    ∃ after, system.generate = (.ok (), after) ∧ CountsUp table system after := by
  rcases generate_of_contextFree free inForce with ⟨after, generated, current, chance, rules⟩
  have settles := settles_generate system
  rw [generated, inForce] at settles
  rcases settles.report with ⟨tally, reported, balances⟩
  rw [current] at balances
  rw [settles.generation, free.eq_census balances] at reported
  exact ⟨after, generated, current, rules, settles.generation, reported, chance⟩

end Development
end LSystem
