import LSystem.Generation.Pass
import LSystem.Proofs.Rule.Firing

namespace LSystem

/-!
# Steps of a pass

A pass that has something ahead either takes one of five kinds of step or fails
because a rule turns out to be unusable; it is never refused.  The relation
`Pass.Step` lists the kinds with all that they change, so facts about passes are
proved by cases and no later proof has to look into the step function.
-/

variable {V : Type}

namespace Pass

/-- What one step can do to a pass and to the source of chance. -/
inductive Step (table : RuleTable V) (ignore : List Symbol) :
    Pass V → Chance → Pass V → Chance → Prop where
  | enter {place next : Place V} (moved : Place.Step place .enter next)
      (context : Option (Place V)) (draft : Draft V) (tally : PassTally) (chance : Chance) :
      Step table ignore ⟨⟨place, context⟩, draft, tally⟩ chance
        ⟨.on next, draft.openBranch, tally.visit⟩ chance
  | exit {place next : Place V} (moved : Place.Step place .exit next)
      (context : Option (Place V)) (draft : Draft V) (tally : PassTally) (chance : Chance) :
      Step table ignore ⟨⟨place, context⟩, draft, tally⟩ chance
        ⟨.on next, draft.closeBranch, tally.visit.close⟩ chance
  | drop {place next : Place V} {letter : Module V} (moved : Place.Step place (.leaf letter) next)
      (inert : letter.isInert = true)
      (context : Option (Place V)) (draft : Draft V) (tally : PassTally) (chance : Chance) :
      Step table ignore ⟨⟨place, context⟩, draft, tally⟩ chance
        ⟨.on next, draft, tally.visit.drop⟩ chance
  | replace {place next : Place V} {letter : Module V}
      (moved : Place.Step place (.leaf letter) next) (alive : letter.isInert = false)
      {chance : Chance} {replacement : Forest V}
      (derived : (table.derive ignore letter (.on next) chance).outcome = .ok (some replacement))
      (context : Option (Place V)) (draft : Draft V) (tally : PassTally) :
      Step table ignore ⟨⟨place, context⟩, draft, tally⟩ chance
        ⟨(table.derive ignore letter (.on next) chance).cursor, draft.append replacement,
          tally.visit.replace (Forest.size replacement)⟩
        (table.derive ignore letter (.on next) chance).chance
  | copy {place next : Place V} {letter : Module V}
      (moved : Place.Step place (.leaf letter) next) (alive : letter.isInert = false)
      {chance : Chance}
      (derived : (table.derive ignore letter (.on next) chance).outcome = .ok none)
      (context : Option (Place V)) (draft : Draft V) (tally : PassTally) :
      Step table ignore ⟨⟨place, context⟩, draft, tally⟩ chance
        ⟨(table.derive ignore letter (.on next) chance).cursor, draft.append [.leaf letter],
          tally.visit.copy⟩
        (table.derive ignore letter (.on next) chance).chance

/-- The one way in which a step can fail: the rule that fires cannot choose. -/
inductive Failure (table : RuleTable V) (ignore : List Symbol) :
    Pass V → Chance → ConfigurationError → Chance → Prop where
  | unchosen {place next : Place V} {letter : Module V}
      (moved : Place.Step place (.leaf letter) next) (alive : letter.isInert = false)
      {chance : Chance} {error : ConfigurationError}
      (derived : (table.derive ignore letter (.on next) chance).outcome = .error error)
      (context : Option (Place V)) (draft : Draft V) (tally : PassTally) :
      Failure table ignore ⟨⟨place, context⟩, draft, tally⟩ chance error
        (table.derive ignore letter (.on next) chance).chance

/-- What a step comes to, as long as something is ahead. -/
def Stepped (table : RuleTable V) (ignore : List Symbol) (pass : Pass V) (chance : Chance) :
    Except Fault (Pass V) × Chance → Prop
  | (.ok next, after) => Step table ignore pass chance next after
  | (.error fault, after) =>
      ∃ error, fault = .configuration error ∧ Failure table ignore pass chance error after

theorem hasNext_iff {pass : Pass V} :
    pass.hasNext = true ↔ 0 < pass.cursor.position.ahead.length := Cursor.hasNext_iff

theorem stepped_step (table : RuleTable V) (ignore : List Symbol) {pass : Pass V}
    (chance : Chance) (running : pass.hasNext = true) :
    Stepped table ignore pass chance (pass.step table ignore chance) := by
  rcases pass with ⟨⟨place, context⟩, draft, tally⟩
  rw [hasNext, Cursor.hasNext_eq_isSome_step?, Option.isSome_iff_exists] at running
  rcases running with ⟨⟨visit, next⟩, taken⟩
  have moved := Place.step?_eq_some_iff.mp taken
  have produced : Cursor.next ⟨place, context⟩ = .ok (visit, .on next) := by
    unfold Cursor.next
    rw [taken]
    rfl
  unfold step
  rw [produced]
  cases visit with
  | enter => exact .enter moved context draft tally chance
  | exit => exact .exit moved context draft tally chance
  | leaf letter =>
      dsimp only
      unfold writeLetter
      split
      · next inert => exact .drop moved inert context draft tally chance
      · next alive =>
          rw [Bool.not_eq_true] at alive
          dsimp only
          split
          · next error failed =>
              exact ⟨error, rfl, .unchosen moved alive failed context draft tally⟩
          · next replacement derived => exact .replace moved alive derived context draft tally
          · next derived => exact .copy moved alive derived context draft tally

/-- With nothing ahead a step is refused. -/
theorem step_of_finished (table : RuleTable V) (ignore : List Symbol) {pass : Pass V}
    (chance : Chance) (finished : pass.hasNext = false) :
    pass.step table ignore chance = (.error (.violation .exhaustedWalk), chance) := by
  have stopped : pass.cursor.position.step? = none := by
    rw [hasNext, Cursor.hasNext_eq_isSome_step?, Option.isSome_eq_false_iff] at finished
    exact Option.isNone_iff_eq_none.mp finished
  rw [step, Cursor.next, stopped]

/-! ## What every step has in common -/

section Common

variable {table : RuleTable V} {ignore : List Symbol} {pass next : Pass V}
  {chance after : Chance}

/-- Every step is one step of the walk and counts as one. -/
theorem Step.walks (step : Step table ignore pass chance next after) :
    (∃ visit, Place.Step pass.cursor.position visit next.cursor.position) ∧
      next.tally.visited = pass.tally.visited + 1 := by
  cases step with
  | enter moved => exact ⟨⟨_, moved⟩, rfl⟩
  | exit moved => exact ⟨⟨_, moved⟩, rfl⟩
  | drop moved => exact ⟨⟨_, moved⟩, rfl⟩
  | @replace _ _ letter moved =>
      refine ⟨⟨.leaf letter, ?_⟩, rfl⟩
      rw [RuleTable.position_derive]
      exact moved
  | @copy _ _ letter moved =>
      refine ⟨⟨.leaf letter, ?_⟩, rfl⟩
      rw [RuleTable.position_derive]
      exact moved

theorem Step.leadsTo (step : Step table ignore pass chance next after) : chance.LeadsTo after := by
  cases step with
  | enter => exact .refl chance
  | exit => exact .refl chance
  | drop => exact .refl chance
  | replace => exact table.derive_leadsTo ignore _ _ chance
  | copy => exact table.derive_leadsTo ignore _ _ chance

theorem Failure.leadsTo {error : ConfigurationError}
    (failure : Failure table ignore pass chance error after) : chance.LeadsTo after := by
  cases failure with
  | unchosen => exact table.derive_leadsTo ignore _ _ chance

/-- The lookups of a step never leave the forest that is being walked through. -/
theorem Step.liesIn {forest : Forest V} (step : Step table ignore pass chance next after)
    (inside : pass.cursor.LiesIn forest) : next.cursor.LiesIn forest := by
  cases step with
  | enter moved => exact .of_place (moved.liesIn inside.position)
  | exit moved => exact .of_place (moved.liesIn inside.position)
  | drop moved => exact .of_place (moved.liesIn inside.position)
  | replace moved =>
      exact table.liesIn_derive ignore _ chance (.of_place (moved.liesIn inside.position))
  | copy moved =>
      exact table.liesIn_derive ignore _ chance (.of_place (moved.liesIn inside.position))

end Common

end Pass
end LSystem
