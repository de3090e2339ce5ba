import LSystem.Proofs.Generation.Rewriting
import LSystem.Proofs.Generation.Step

namespace LSystem

/-!
# The outlook of a pass

A pass in progress holds a half written draft and a place half way through the
old generation.  Its outlook is what it is going to come to: the rewriting of
everything ahead, level by level outwards, added to what has been written.
Main statement: a step keeps the outlook.  So whatever a pass ends with is what
it was going to come to when it started, and that is the next generation.
-/

variable {V : Type}

section Outlook

variable (tables : Nat → RuleTable V) (ignore : List Symbol)

/-- Rewrites the levels around a level that has just come to its end.  The
branch that the level spells out is closed first, which takes one step. -/
def Draft.closeLevels : List (Level V) → Nat → Draft V → Drawing (Forest V)
  | [], _, draft => pure draft.forest
  | outer :: around, step, draft => do
      let written ← Forest.rewrite tables ignore around outer.passed (step + 1) outer.right
      closeLevels around (step + 1 + Forest.size outer.right) (draft.closeBranch.append written)

/-- What a walk that is at a place after a number of steps makes of a draft. -/
def Place.outlook (step : Nat) (place : Place V) (draft : Draft V) : Drawing (Forest V) := do
  let written ← Forest.rewrite tables ignore place.enclosing place.level.passed step
    place.level.right
  draft.append written |>.closeLevels tables ignore place.enclosing
    (step + Forest.size place.level.right)

/-- What a pass is going to come to. -/
def Pass.outlook (pass : Pass V) : Drawing (Forest V) :=
  pass.cursor.position.outlook tables ignore pass.tally.visited pass.draft

end Outlook

variable {tables : Nat → RuleTable V} {ignore : List Symbol}

namespace Place

/-! ## One step of the walk -/

theorem Step.outlook_leaf {place next : Place V} {letter : Module V}
    (moved : Step place (.leaf letter) next) (step : Nat) (draft : Draft V) :
    place.outlook tables ignore step draft = (do
      let written ← Site.replacement tables ignore ⟨step, letter, next⟩
      next.outlook tables ignore (step + 1) (draft.append written)) := by
  cases moved with
  | leaf left focus letter right enclosing =>
      simp [outlook, Forest.rewrite, Element.rewrite, Level.passed, Nat.add_assoc]

theorem Step.outlook_enter {place next : Place V} (moved : Step place .enter next) (step : Nat)
    (draft : Draft V) :
    place.outlook tables ignore step draft =
      next.outlook tables ignore (step + 1) draft.openBranch := by
  cases moved with
  | enter left focus contents right enclosing =>
      have between : step + (Forest.size contents + 2) = step + 1 + Forest.size contents + 1 := by
        omega
      simp [outlook, Forest.rewrite, Element.rewrite, Draft.closeLevels, Level.passed, Level.start,
        between, ← Nat.add_assoc step (Forest.size contents + 2)]

theorem Step.outlook_exit {place next : Place V} (moved : Step place .exit next) (step : Nat)
    (draft : Draft V) :
    place.outlook tables ignore step draft =
      next.outlook tables ignore (step + 1) draft.closeBranch := by
  cases moved with
  | exit left focus outer around =>
      simp [outlook, Forest.rewrite, Draft.closeLevels]

/-- With nothing ahead the draft is finished. -/
theorem outlook_of_ahead_eq_nil (step : Nat) {place : Place V} (exhausted : place.ahead = [])
    (draft : Draft V) : outlook tables ignore step place draft = pure draft.forest := by
  rcases of_ahead_eq_nil exhausted with ⟨atEnd, outermost⟩
  simp [outlook, atEnd, outermost, Forest.rewrite, Draft.closeLevels]

end Place

namespace Pass

/-- In front of a forest the outlook is the whole next generation. -/
theorem outlook_start (forest : Forest V) :
    (start forest).outlook tables ignore = forest.nextGeneration tables ignore := by
  unfold outlook Place.outlook
  change (do
    let written ← Forest.nextGeneration tables ignore forest
    pure (Draft.blank.append written).forest) = _
  simp

theorem outlook_of_not_hasNext {pass : Pass V} (finished : pass.hasNext = false) :
    pass.outlook tables ignore = pure pass.draft.forest := by
  apply Place.outlook_of_ahead_eq_nil
  rw [← Bool.not_eq_true, hasNext_iff, Nat.not_lt, Nat.le_zero, List.length_eq_zero_iff] at finished
  exact finished

/-! ## One step of the pass -/

/-- At a leaf the outlook depends on what the rules make of the leaf. -/
theorem outcome_outlook_leaf {place next : Place V} {letter : Module V}
    (moved : Place.Step place (.leaf letter) next) (step : Nat) (draft : Draft V)
    (chance : Chance) :
    (place.outlook tables ignore step draft).outcome chance =
      match ((tables step).replacement ignore letter next).outcome chance with
      | (.ok written, chance) =>
          (next.outlook tables ignore (step + 1) (draft.append written)).outcome chance
      | (.error error, chance) => (.error error, chance) := by
  rw [moved.outlook_leaf, Drawing.outcome_bind]
  dsimp only [Site.replacement]
  rcases ((tables step).replacement ignore letter next).outcome chance with ⟨_ | written, after⟩ <;>
    rfl

theorem Step.outlook_eq {pass next : Pass V} {chance after : Chance}
    (step : Step (tables pass.tally.visited) ignore pass chance next after) :
    (next.outlook tables ignore).outcome after = (pass.outlook tables ignore).outcome chance := by
  rcases pass with ⟨⟨place, context⟩, draft, tally⟩
  unfold outlook
  cases step with
  | enter moved =>
      exact congrArg (Drawing.outcome · _) (moved.outlook_enter _ _).symm
  | exit moved =>
      exact congrArg (Drawing.outcome · _) (moved.outlook_exit _ _).symm
  | drop moved inert =>
      rw [outcome_outlook_leaf moved, RuleTable.outcome_replacement, if_pos inert]
      rfl
  | replace moved alive derived =>
      rw [outcome_outlook_leaf moved, RuleTable.outcome_replacement,
        if_neg (Bool.eq_false_iff.mp alive), derived, RuleTable.position_derive]
      rfl
  | copy moved alive derived =>
      rw [outcome_outlook_leaf moved, RuleTable.outcome_replacement,
        if_neg (Bool.eq_false_iff.mp alive), derived, RuleTable.position_derive]
      rfl

/-- A pass that fails was going to fail. -/
theorem Failure.outlook_eq {pass : Pass V} {chance after : Chance} {error : ConfigurationError}
    (failure : Failure (tables pass.tally.visited) ignore pass chance error after) :
    (pass.outlook tables ignore).outcome chance = (.error error, after) := by
  rcases pass with ⟨⟨place, context⟩, draft, tally⟩
  unfold outlook
  cases failure with
  | unchosen moved alive derived =>
      rw [outcome_outlook_leaf moved, RuleTable.outcome_replacement,
        if_neg (Bool.eq_false_iff.mp alive), derived]
      rfl

end Pass
end LSystem
