import LSystem.Proofs.Cursor.Confinement
import LSystem.Rule.Match

namespace LSystem

/-!
# Firing

Which rule replaces a module is settled by the table and by the place of the
module alone.  Earlier attempts leave no trace, because each starts over at the
place, and chance is asked only when the rule has been found.  Main statements:
a derivation is the first matching rule making its replacement, it leaves the
walk where it was, and it draws one number if that rule has several successors
and none otherwise.
-/

variable {V : Type}

/-! ## One attempt -/

namespace CompiledRule

@[simp]
theorem position_follow (ignore : List Symbol) (context : List ContextPredecessor)
    (cursor : Cursor V) : (follow ignore context cursor).2.position = cursor.position := by
  induction context generalizing cursor with
  | nil => rfl
  | cons predecessor rest inductionHypothesis =>
      have moved := cursor.position_navigate ignore predecessor.direction
      unfold follow
      split
      · next looked => rw [looked] at moved; exact moved
      · next looked =>
          rw [looked] at moved
          split
          · exact (inductionHypothesis _).trans moved
          · exact moved

@[simp]
theorem position_matchAt (ignore : List Symbol) (rule : CompiledRule V) (letter : Module V)
    (cursor : Cursor V) : (rule.matchAt ignore letter cursor).2.position = cursor.position := by
  unfold matchAt
  split
  · exact position_follow ignore rule.context cursor.resetContext
  · rfl

/-- An attempt starts over at the position of the walk. -/
theorem matchAt_eq_on (ignore : List Symbol) (rule : CompiledRule V) (letter : Module V)
    (cursor : Cursor V) :
    rule.matchAt ignore letter cursor = rule.matchAt ignore letter (.on cursor.position) := rfl

theorem liesIn_follow {forest : Forest V} (ignore : List Symbol)
    (context : List ContextPredecessor) {cursor : Cursor V} (inside : cursor.LiesIn forest) :
    (follow ignore context cursor).2.LiesIn forest := by
  induction context generalizing cursor with
  | nil => exact inside
  | cons predecessor rest inductionHypothesis =>
      have moved := (inside.navigate ignore predecessor.direction).1
      unfold follow
      split
      · next looked => rw [looked] at moved; exact moved
      · next looked =>
          rw [looked] at moved
          split
          · exact inductionHypothesis moved
          · exact moved

theorem liesIn_matchAt {forest : Forest V} (ignore : List Symbol) (rule : CompiledRule V)
    (letter : Module V) {cursor : Cursor V} (inside : cursor.LiesIn forest) :
    (rule.matchAt ignore letter cursor).2.LiesIn forest := by
  unfold matchAt
  split
  · exact liesIn_follow ignore rule.context inside.resetContext
  · exact inside.resetContext

end CompiledRule

/-! ## Draws -/

/-- The same sequence of numbers, at the same place or further on. -/
structure Chance.LeadsTo (before after : Chance) : Prop where
  draws_eq : after.draws = before.draws
  used_le : before.used ≤ after.used

namespace Chance.LeadsTo

theorem refl (chance : Chance) : chance.LeadsTo chance := ⟨rfl, Nat.le_refl _⟩

theorem trans {first second third : Chance} (earlier : first.LeadsTo second)
    (later : second.LeadsTo third) : first.LeadsTo third where
  draws_eq := later.draws_eq.trans earlier.draws_eq
  used_le := Nat.le_trans earlier.used_le later.used_le

theorem draw (chance : Chance) : chance.LeadsTo chance.draw.2 := ⟨rfl, Nat.le_succ _⟩

end Chance.LeadsTo

/-- The source after some more draws. -/
def Chance.skip (count : Nat) (chance : Chance) : Chance :=
  { chance with used := chance.used + count }

@[simp]
theorem Chance.skip_skip (first second : Nat) (chance : Chance) :
    (chance.skip first).skip second = chance.skip (first + second) := by
  simp [Chance.skip, Nat.add_assoc]

namespace CompiledRule

/-- Whether the rule has to choose among successors. -/
def isStochastic (rule : CompiledRule V) : Bool := 1 < rule.thresholds.length

theorem produce_leadsTo (rule : CompiledRule V) (arguments : List V) (chance : Chance) :
    chance.LeadsTo (rule.produce arguments chance).2 := by
  unfold produce
  split
  · exact .refl chance
  · dsimp only
    split <;> exact .draw chance

/-- A replacement costs one draw if there is something to choose, and no draw
otherwise.  A rule without successors never makes one. -/
theorem chance_of_produce {rule : CompiledRule V} {arguments : List V} {chance after : Chance}
    {replacement : Forest V} (made : rule.produce arguments chance = (.ok replacement, after)) :
    after = chance.skip (if rule.isStochastic then 1 else 0) := by
  unfold produce at made
  split at made
  · next only single =>
      cases made
      rw [isStochastic, single]
      rfl
  · next several notSingle =>
      dsimp only at made
      split at made
      · next threshold chosen =>
          cases made
          have member := List.mem_of_find?_eq_some chosen
          have many : 1 < rule.thresholds.length := by
            rcases thresholds : rule.thresholds with _ | ⟨first, _ | ⟨second, rest⟩⟩
            · rw [thresholds] at member
              cases member
            · exact absurd thresholds (notSingle first)
            · simp
          rw [isStochastic, decide_eq_true many]
          rfl
      · cases made

end CompiledRule

/-! ## Derivations -/

namespace RuleTable

/-- The rule that replaces a module at a place, and the arguments it gathers
there: the first one in the bucket that matches. -/
def firing? (table : RuleTable V) (ignore : List Symbol) (letter : Module V) (place : Place V) :
    Option (CompiledRule V × List V) :=
  ((table.bucket? letter.signature).getD []).findSome? fun rule =>
    (rule.matchAt ignore letter (.on place)).1.map (rule, ·)

/-- Whether the rule that replaces a module at a place chooses by chance. -/
def drawsAt (table : RuleTable V) (ignore : List Symbol) (letter : Module V) (place : Place V) :
    Bool :=
  (table.firing? ignore letter place).any fun firing => firing.1.isStochastic

section Attempts

variable (ignore : List Symbol) (letter : Module V)

theorem tryRules_eq_findSome? (rules : List (CompiledRule V)) (cursor : Cursor V)
    (chance : Chance) :
    ((tryRules ignore letter cursor chance rules).outcome,
        (tryRules ignore letter cursor chance rules).chance) =
      match rules.findSome? fun rule =>
          (rule.matchAt ignore letter (.on cursor.position)).1.map (rule, ·) with
      | none => (.ok none, chance)
      | some (rule, arguments) =>
          ((rule.produce arguments chance).1.map some, (rule.produce arguments chance).2) := by
  induction rules generalizing cursor with
  | nil => rfl
  | cons rule rest inductionHypothesis =>
      rw [List.findSome?_cons, ← rule.matchAt_eq_on ignore letter cursor]
      have stays := rule.position_matchAt ignore letter cursor
      rcases attempt : rule.matchAt ignore letter cursor with ⟨_ | arguments, moved⟩
      · rw [attempt] at stays
        have further := inductionHypothesis moved
        rw [show moved.position = cursor.position from stays] at further
        simpa only [tryRules, attempt, Option.map_none] using further
      · simp only [tryRules, attempt, Option.map_some]

@[simp]
theorem position_tryRules (rules : List (CompiledRule V)) (cursor : Cursor V) (chance : Chance) :
    (tryRules ignore letter cursor chance rules).cursor.position = cursor.position := by
  induction rules generalizing cursor with
  | nil => rfl
  | cons rule rest inductionHypothesis =>
      have stays := rule.position_matchAt ignore letter cursor
      unfold tryRules
      split
      · next attempt => rw [attempt] at stays; exact (inductionHypothesis _).trans stays
      · next attempt => rw [attempt] at stays; exact stays

theorem liesIn_tryRules {forest : Forest V} (rules : List (CompiledRule V)) {cursor : Cursor V}
    (chance : Chance) (inside : cursor.LiesIn forest) :
    (tryRules ignore letter cursor chance rules).cursor.LiesIn forest := by
  induction rules generalizing cursor with
  | nil => exact inside
  | cons rule rest inductionHypothesis =>
      have stays := rule.liesIn_matchAt ignore letter inside
      unfold tryRules
      split
      · next attempt => rw [attempt] at stays; exact inductionHypothesis stays
      · next attempt => rw [attempt] at stays; exact stays

end Attempts

section Derivations

variable (table : RuleTable V) (ignore : List Symbol) (letter : Module V)

/-- A derivation is the firing rule making its replacement. -/
theorem derive_eq_firing? (cursor : Cursor V) (chance : Chance) :
    ((table.derive ignore letter cursor chance).outcome,
        (table.derive ignore letter cursor chance).chance) =
      match table.firing? ignore letter cursor.position with
      | none => (.ok none, chance)
      | some (rule, arguments) =>
          ((rule.produce arguments chance).1.map some, (rule.produce arguments chance).2) :=
  tryRules_eq_findSome? ignore letter _ cursor chance

@[simp]
theorem position_derive (cursor : Cursor V) (chance : Chance) :
    (table.derive ignore letter cursor chance).cursor.position = cursor.position :=
  position_tryRules ignore letter _ cursor chance

theorem liesIn_derive {forest : Forest V} {cursor : Cursor V} (chance : Chance)
    (inside : cursor.LiesIn forest) :
    (table.derive ignore letter cursor chance).cursor.LiesIn forest :=
  liesIn_tryRules ignore letter _ chance inside

theorem derive_leadsTo (cursor : Cursor V) (chance : Chance) :
    chance.LeadsTo (table.derive ignore letter cursor chance).chance := by
  have derived := congrArg Prod.snd (table.derive_eq_firing? ignore letter cursor chance)
  dsimp only at derived
  rw [derived]
  split
  · exact .refl chance
  · next rule arguments _ => exact rule.produce_leadsTo arguments chance

end Derivations

/-- A derivation that succeeds draws one number if the firing rule chooses by
chance, and none otherwise. -/
theorem chance_of_derive {table : RuleTable V} {ignore : List Symbol} {letter : Module V}
    {cursor : Cursor V} {chance : Chance} {replacement : Option (Forest V)}
    (derived : (table.derive ignore letter cursor chance).outcome = .ok replacement) :
    (table.derive ignore letter cursor chance).chance =
      chance.skip (if table.drawsAt ignore letter cursor.position then 1 else 0) := by
  have both := table.derive_eq_firing? ignore letter cursor chance
  rw [derived] at both
  unfold drawsAt
  rcases fires : table.firing? ignore letter cursor.position with _ | ⟨rule, arguments⟩
  · rw [fires] at both
    exact congrArg Prod.snd both
  · rw [fires] at both
    dsimp only at both
    rcases made : rule.produce arguments chance with ⟨_ | fragment, after⟩
    · rw [made] at both
      cases congrArg Prod.fst both
    · rw [made] at both
      have last : (table.derive ignore letter cursor chance).chance = after :=
        congrArg Prod.snd both
      rw [last]
      exact CompiledRule.chance_of_produce made

end RuleTable
end LSystem
