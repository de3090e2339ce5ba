import LSystem.Proofs.Generation.Step
import Mathlib.Algebra.GroupWithZero.Nat

namespace LSystem

/-!
# Keeping track of a pass

The counters of a pass, its draft and its place are kept apart, but they belong
together: the place is where a walk gets in as many steps as have been counted,
the draft has a page open for each level that the place is in, and the modules
counted are those that stand in the draft.  Main statements: a pass that starts
is on track, every step keeps it there, and when nothing is left the count is
the size of the forest that has been written.
-/

variable {V : Type}

@[simp]
theorem Forest.size_reverse (forest : Forest V) :
    Forest.size (forest.reverse : Forest V) = Forest.size forest := by
  induction forest with
  | nil => rfl
  | cons element rest inductionHypothesis => simp [inductionHypothesis, Nat.add_comm]

/-! ## Drafts -/

namespace Draft

/-- The size of all that has been written, on every open page. -/
def size (draft : Draft V) : Nat :=
  Forest.size draft.page + (draft.enclosing.map Forest.size).sum

@[simp]
theorem size_append (draft : Draft V) (elements : Forest V) :
    (draft.append elements).size = draft.size + Forest.size elements := by
  simp only [size, append, Forest.size_append, Forest.size_reverse]
  omega

@[simp]
theorem size_openBranch (draft : Draft V) : draft.openBranch.size = draft.size := by
  simp [size, openBranch]

/-- Closing a branch brings in its two ends. -/
@[simp]
theorem size_closeBranch (draft : Draft V) : draft.closeBranch.size = draft.size + 2 := by
  rcases draft with ⟨page, _ | ⟨outer, around⟩⟩
  · simp [size, closeBranch]
  · simp [size, closeBranch]
    omega

theorem size_forest {draft : Draft V} (outermost : draft.enclosing.length = 0) :
    Forest.size draft.forest = draft.size := by
  rcases draft with ⟨page, enclosing⟩
  rw [List.length_eq_zero_iff] at outermost
  subst outermost
  simp [forest, size]

end Draft

/-! ## Passes -/

/-- The parts of a pass over a forest agree with each other. -/
structure Pass.Tracks (forest : Forest V) (pass : Pass V) : Prop where
  reached : Place.after forest pass.tally.visited = some pass.cursor.position
  aligned : pass.draft.enclosing.length = pass.cursor.position.enclosing.length
  counted : pass.tally.moduleCount = pass.draft.size
  inside : pass.cursor.LiesIn forest

namespace Pass

theorem tracks_start (forest : Forest V) : (start forest).Tracks forest where
  reached := rfl
  aligned := rfl
  counted := rfl
  inside := .of_place (Place.liesIn_root forest)

variable {forest : Forest V}

theorem Step.tracks {table : RuleTable V} {ignore : List Symbol} {pass next : Pass V}
    {chance after : Chance} (step : Step table ignore pass chance next after)
    (tracks : pass.Tracks forest) : next.Tracks forest := by
  have reached : Place.after forest next.tally.visited = some next.cursor.position := by
    rcases step.walks with ⟨⟨visit, moved⟩, visited⟩
    rw [visited]
    exact Place.after_succ tracks.reached moved
  have inside := step.liesIn tracks.inside
  have aligned := tracks.aligned
  have counted := tracks.counted
  cases step with
  | enter moved context draft tally =>
      refine ⟨reached, ?_, ?_, inside⟩
      · cases moved
        exact congrArg (· + 1) aligned
      · exact counted.trans draft.size_openBranch.symm
  | exit moved context draft tally =>
      refine ⟨reached, ?_, ?_, inside⟩
      · cases moved
        rcases draft with ⟨page, _ | ⟨outer, around⟩⟩
        · cases aligned
        · exact Nat.succ.inj aligned
      · rw [draft.size_closeBranch, ← counted]
        rfl
  | drop moved inert context draft tally =>
      refine ⟨reached, ?_, counted, inside⟩
      cases moved
      exact aligned
  | replace moved alive derived context draft tally =>
      refine ⟨reached, ?_, ?_, inside⟩
      · rw [RuleTable.position_derive]
        cases moved
        exact aligned
      · rw [draft.size_append, ← counted]
        rfl
  | copy moved alive derived context draft tally =>
      refine ⟨reached, ?_, ?_, inside⟩
      · rw [RuleTable.position_derive]
        cases moved
        exact aligned
      · rw [draft.size_append, ← counted]
        rfl

/-- Something is ahead exactly as long as not all of the forest has been visited. -/
theorem Tracks.hasNext_iff {pass : Pass V} (tracks : pass.Tracks forest) :
    pass.hasNext = true ↔ pass.tally.visited < Forest.size forest := by
  have total := Place.length_ahead_of_after tracks.reached
  rw [Pass.hasNext_iff]
  omega

/-- The count that a finished pass reports is the size of what it has written. -/
theorem Tracks.moduleCount_eq {pass : Pass V} (tracks : pass.Tracks forest)
    (finished : pass.hasNext = false) :
    pass.tally.moduleCount = Forest.size pass.draft.forest := by
  rw [← Bool.not_eq_true, Pass.hasNext_iff, Nat.not_lt, Nat.le_zero,
    List.length_eq_zero_iff] at finished
  have outermost := (Place.of_ahead_eq_nil finished).2
  rw [Draft.size_forest, tracks.counted]
  rw [tracks.aligned, outermost]
  rfl

end Pass
end LSystem
