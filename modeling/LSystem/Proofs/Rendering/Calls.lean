import LSystem.Proofs.Cursor.Walk
import LSystem.Rendering.Basic
import Mathlib.Data.List.Basic

namespace LSystem

/-!
# Calls

All that a host sees of a rendering is which of its actions are called, in which
order and with which arguments.  Here these calls are read off the walk over a
generation: there is one for each step whose symbol has an action at the time of
the step.  Main statement: a step of a rendering makes the call for its step of
the walk, if there is one, and counts it.
-/

variable {V σ : Type}

/-! ## Calls -/

/-- A call of an action. -/
structure Call (V σ : Type) where
  symbol : Symbol
  action : Action V σ
  arguments : List V

namespace Call

/-- What a call does to the host. -/
def make (host : σ) (call : Call V σ) : σ := call.action call.arguments host

/-- What calls one after another do to the host. -/
def makeAll (calls : List (Call V σ)) (host : σ) : σ := calls.foldl make host

@[simp]
theorem makeAll_append (first second : List (Call V σ)) (host : σ) :
    makeAll (first ++ second) host = makeAll second (makeAll first host) := List.foldl_append

end Call

/-- The call for one step of a walk, if its symbol has an action. -/
def Visit.call? (actions : Actions V σ) (visit : Visit V) : Option (Call V σ) :=
  (actions.find? visit.symbol).map fun action => ⟨visit.symbol, action, visit.arguments⟩

theorem Visit.call?_of_unbound {actions : Actions V σ} {visit : Visit V}
    (unbound : actions.find? visit.symbol = none) : visit.call? actions = none := by
  rw [call?, unbound]
  rfl

theorem Visit.call?_of_bound {actions : Actions V σ} {visit : Visit V} {action : Action V σ}
    (bound : actions.find? visit.symbol = some action) :
    visit.call? actions = some ⟨visit.symbol, action, visit.arguments⟩ := by
  rw [call?, bound]
  rfl

/-- The calls for a walk.  Each step meets with the actions that are in force at
its number. -/
def callsOf (inForce : Nat → Actions V σ) (walk : List (Visit V)) : List (Call V σ) :=
  walk.zipIdx.filterMap fun entry => entry.1.call? (inForce entry.2)

@[simp]
theorem callsOf_append (inForce : Nat → Actions V σ) (first second : List (Visit V)) :
    callsOf inForce (first ++ second) =
      callsOf inForce first ++ callsOf (fun step => inForce (first.length + step)) second := by
  unfold callsOf
  rw [List.zipIdx_append, List.filterMap_append, Nat.zero_add,
    List.zipIdx_eq_map_add (l := second), List.filterMap_map]
  rfl

@[simp]
theorem callsOf_singleton (inForce : Nat → Actions V σ) (visit : Visit V) :
    callsOf inForce [visit] = (visit.call? (inForce 0)).toList := by
  unfold callsOf
  rw [List.zipIdx_singleton, List.filterMap_cons]
  rcases visit.call? (inForce 0) with _ | call
  · rfl
  · rfl

/-- Only the actions at the steps of the walk matter. -/
theorem callsOf_congr {first second : Nat → Actions V σ} {walk : List (Visit V)}
    (same : ∀ step < walk.length, first step = second step) :
    callsOf first walk = callsOf second walk := by
  apply List.filterMap_congr
  rintro ⟨visit, step⟩ member
  have inside := List.snd_lt_of_mem_zipIdx member
  rw [same step inside]

/-- Whether each of the actions adds its call to a list of notes and leaves the rest of
them as they are. -/
def Actions.Record (note : σ → List (Symbol × List V)) (actions : Actions V σ) : Prop :=
  ∀ symbol action, actions.find? symbol = some action →
    ∀ arguments host, note (action arguments host) = note host ++ [(symbol, arguments)]

/-- What is noted down is the walk without the steps that have no action. -/
theorem note_makeAll {note : σ → List (Symbol × List V)} {inForce : Nat → Actions V σ}
    (record : ∀ step, (inForce step).Record note) (walk : List (Visit V)) (host : σ) :
    note (Call.makeAll (callsOf inForce walk) host) =
      note host ++ (walk.zipIdx.filter fun entry =>
        (inForce entry.2).isBound entry.1.symbol).map fun entry =>
          (entry.1.symbol, entry.1.arguments) := by
  unfold callsOf
  generalize walk.zipIdx = numbered
  induction numbered generalizing host with
  | nil => exact (List.append_nil _).symm
  | cons entry rest inductionHypothesis =>
      rcases entry with ⟨visit, step⟩
      rw [List.filterMap_cons, List.filter_cons]
      dsimp only
      rcases found : (inForce step).find? visit.symbol with _ | action
      · rw [Visit.call?_of_unbound found, Actions.isBound, found]
        exact inductionHypothesis host
      · have noted := record step visit.symbol action found visit.arguments host
        rw [Visit.call?_of_bound found, Actions.isBound, found]
        refine (inductionHypothesis _).trans ?_
        rw [Call.make, noted, List.append_assoc]
        rfl

/-! ## Steps of a rendering -/

/-- A tally after more steps, some of which have had an action. -/
def RenderTally.add (visited invoked : Nat) (tally : RenderTally) : RenderTally :=
  ⟨tally.visited + visited, tally.invoked + invoked⟩

/-- A rendering that has something ahead makes the call for its next step. -/
theorem Rendering.exists_call {rendering : Rendering V} (running : rendering.hasNext = true)
    (actions : Actions V σ) (host : σ) :
    ∃ visit next,
      rendering.step actions host =
        .ok (next, Call.makeAll (visit.call? actions).toList host) ∧
      Place.Step rendering.cursor.position visit next.cursor.position ∧
      next.tally = rendering.tally.add 1 (visit.call? actions).toList.length := by
  rcases rendering with ⟨⟨place, context⟩, ⟨visited, invoked⟩⟩
  rw [hasNext, Cursor.hasNext_eq_isSome_step?, Option.isSome_iff_exists] at running
  rcases running with ⟨⟨visit, next⟩, taken⟩
  have moved := Place.step?_eq_some_iff.mp taken
  have produced : Cursor.next ⟨place, context⟩ = .ok (visit, ⟨next, some next⟩) := by
    unfold Cursor.next
    rw [taken]
  refine ⟨visit, ⟨⟨next, some next⟩, RenderTally.add 1 _ ⟨visited, invoked⟩⟩, ?_, moved, rfl⟩
  unfold step
  rw [produced]
  dsimp only
  rcases found : actions.find? visit.symbol with _ | action
  · rw [Visit.call?_of_unbound found]
    rfl
  · rw [Visit.call?_of_bound found]
    rfl

end LSystem
