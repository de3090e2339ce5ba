import LSystem.Dump

namespace LSystem

/-!
# Branches spelled out

A forest can be written without branches, with bracket modules at the ends of each.  To
rewriting that is another forest, but whoever only walks through it meets with the same
symbols and arguments.  Main statement: the walk over a spelled forest is the spelled
walk, so the two forests have the same size and the same dump in every style.
-/

variable {V : Type}

mutual

/-- One element with bracket modules in place of branches. -/
def Element.spelled : Element V → Forest V
  | .leaf letter => [.leaf letter]
  | .branch contents =>
      .leaf (.plain .opening) :: (Forest.spelled contents ++ [.leaf (.plain .closing)])

/-- A forest with bracket modules in place of branches, at every depth. -/
def Forest.spelled : Forest V → Forest V
  | [] => []
  | element :: rest => element.spelled ++ Forest.spelled rest

end

attribute [simp] Element.spelled Forest.spelled

namespace Visit

/-- The visit of a bracket module for one end of a branch. -/
def spelled : Visit V → Visit V
  | .enter => .leaf (.plain .opening)
  | .exit => .leaf (.plain .closing)
  | .leaf letter => .leaf letter

@[simp]
theorem symbol_spelled (visit : Visit V) : visit.spelled.symbol = visit.symbol := by
  cases visit <;> rfl

@[simp]
theorem arguments_spelled (visit : Visit V) : visit.spelled.arguments = visit.arguments := by
  cases visit <;> rfl

end Visit

@[simp]
theorem Forest.visits_spelled (forest : Forest V) :
    Forest.visits forest.spelled = (Forest.visits forest).map Visit.spelled := by
  induction forest using Forest.induction with
  | nil => rfl
  | leaf first rest inRest => simp [Visit.spelled, inRest]
  | branch contents rest inContents inRest => simp [Visit.spelled, inContents, inRest]

@[simp]
theorem Forest.size_spelled (forest : Forest V) :
    Forest.size forest.spelled = Forest.size forest := by
  rw [← length_visits, ← length_visits, visits_spelled, List.length_map]

/-! ## Dumps -/

/-- A dump takes no notice of what a step is besides its symbol and its arguments. -/
@[simp]
theorem Dump.step_spelled (style : DumpStyle) (write : V → String) (dump : Dump)
    (visit : Visit V) : dump.step style write visit.spelled = dump.step style write visit := by
  simp [step, word]

@[simp]
theorem Forest.dump_spelled (style : DumpStyle) (write : V → String) (forest : Forest V) :
    Forest.dump style write forest.spelled = Forest.dump style write forest := by
  simp [dump, List.foldl_map]

end LSystem
