import LSystem.Demo.Catalog
import LSystem.Proofs.Demo.Turtle
import LSystem.Proofs.Development.Census
import LSystem.Proofs.Development.Separation

namespace LSystem

/-!
# The growth of an island

The outline of an island is a line of sides with a corner between any two of them.  A pass
makes five sides out of each, with four corners among them, and leaves the corners as they
are.  So an outline stays one, and all that there is to count follows from the number of its
sides.  Main statement: from four sides it grows by a factor of five with every pass.
-/

namespace Koch

def side : Module Float := ⟨⟨"F"⟩, []⟩

def corner : Module Float := ⟨⟨"-"⟩, []⟩

/-- What the island starts as. -/
def square : Forest Float :=
  [.leaf side, .leaf corner, .leaf side, .leaf corner, .leaf side, .leaf corner, .leaf side]

theorem start_eq : Catalog.koch.start = square := by
  have letters : "F-F-F-F".toList = ['F', '-', 'F', '-', 'F', '-', 'F'] := by decide
  rw [Catalog.koch, Catalog.spell, letters]
  rfl

/-- What a side gives way to. -/
def bay : Forest Float :=
  [.leaf side, .leaf side, .leaf corner, .leaf side, .leaf corner, .leaf corner, .leaf side,
    .leaf corner, .leaf side]

theorem spell_bay : Catalog.spell "FF-F--F-F" = bay := by
  have letters : "FF-F--F-F".toList = ['F', 'F', '-', 'F', '-', '-', 'F', '-', 'F'] := by decide
  rw [Catalog.spell, letters]
  rfl

/-! ## Outlines -/

/-- A forest that consists of so many sides, and of one corner fewer. -/
structure Outline (sides : Nat) (forest : Forest Float) : Prop where
  plain : ∀ letter ∈ Forest.leaves forest, letter = side ∨ letter = corner
  sides_eq : (Forest.leaves forest).countP (·.symbol = ⟨"F"⟩) = sides
  corners_eq : (Forest.leaves forest).countP (·.symbol = ⟨"-"⟩) + 1 = sides
  unbranched : Forest.branches forest = 0

/-- What is counted over sides and corners can be counted for the sides and for the
corners. -/
theorem sum_map_of_plain (measure : Module Float → Nat) {letters : List (Module Float)}
    (plain : ∀ letter ∈ letters, letter = side ∨ letter = corner) :
    (letters.map measure).sum =
      measure side * letters.countP (·.symbol = ⟨"F"⟩) +
        measure corner * letters.countP (·.symbol = ⟨"-"⟩) := by
  induction letters with
  | nil => rfl
  | cons letter rest inductionHypothesis =>
      have further := inductionHypothesis fun other member =>
        plain other (List.mem_cons_of_mem letter member)
      rw [List.map_cons, List.sum_cons, further]
      rcases plain letter List.mem_cons_self with rfl | rfl
      · rw [List.countP_cons_of_pos (by decide), List.countP_cons_of_neg (by decide), Nat.mul_add]
        omega
      · rw [List.countP_cons_of_neg (by decide), List.countP_cons_of_pos (by decide), Nat.mul_add]
        omega

namespace Outline

variable {sides : Nat} {forest : Forest Float}

theorem sum_map (outline : Outline sides forest) (measure : Module Float → Nat) :
    ((Forest.leaves forest).map measure).sum =
      measure side * sides + measure corner * (sides - 1) := by
  have corners := Nat.eq_sub_of_add_eq outline.corners_eq
  rw [sum_map_of_plain measure outline.plain, outline.sides_eq, corners]

theorem countP (outline : Outline sides forest) (asked : Module Float → Bool) :
    (Forest.leaves forest).countP asked =
      [side].countP asked * sides + [corner].countP asked * (sides - 1) := by
  have counted := outline.sum_map fun letter => [letter].countP asked
  rw [← counted]
  change _ = ((Forest.leaves forest).map (List.countP asked ∘ fun letter => [letter])).sum
  rw [← List.countP_flatMap, List.flatMap_singleton']

theorem size_eq (outline : Outline sides forest) : Forest.size forest = 2 * sides - 1 := by
  have all := outline.countP fun _ => true
  have some := outline.corners_eq
  rw [List.countP_true] at all
  rw [Forest.size_eq, outline.unbranched, all]
  change 1 * sides + 1 * (sides - 1) + 2 * 0 = _
  omega

theorem unbracketed (outline : Outline sides forest) : forest.Unbracketed := by
  intro letter member
  rcases outline.plain letter member with rfl | rfl
  · decide
  · decide

end Outline

/-! ## One pass -/

/-- What the rules of the island come to. -/
structure Grows (table : RuleTable Float) : Prop where
  free : table.ContextFree
  side_eq : table.offspring side = bay
  corner_eq : table.offspring corner = [.leaf corner]
  replaced : table.hasOffspring side = true
  copied : table.hasOffspring corner = false

theorem exists_table :
    ∃ table, RuleTable.ofRules Catalog.koch.rules = .ok table ∧ Grows table := by
  have free : ∀ rule ∈ Catalog.koch.rules, rule.IsContextFree := by decide
  exact ⟨_, rfl, RuleTable.contextFree_ofRules rfl free, spell_bay, rfl, rfl, rfl⟩

theorem outline_start : Outline 4 Catalog.koch.start := by
  rw [start_eq]
  exact {
    plain := by
      simp [square]
    sides_eq := rfl
    corners_eq := rfl
    unbranched := rfl }

namespace Grows

variable {table : RuleTable Float} {sides : Nat} {forest : Forest Float}

/-- An outline grows into an outline. -/
theorem outline_substitute (grows : Grows table) (outline : Outline sides forest) :
    Outline (5 * sides) (forest.substitute table.offspring) where
  plain := by
    intro letter member
    rw [Forest.leaves_substitute] at member
    rcases List.mem_flatMap.mp member with ⟨parent, old, new⟩
    rcases outline.plain parent old with rfl | rfl
    · rw [grows.side_eq] at new
      simp [bay] at new
      tauto
    · rw [grows.corner_eq] at new
      exact .inr (List.mem_singleton.mp new)
  sides_eq := by
    rw [Forest.leaves_substitute, List.countP_flatMap, outline.sum_map]
    simp only [Function.comp_apply, grows.side_eq, grows.corner_eq]
    change 5 * sides + 0 * (sides - 1) = 5 * sides
    omega
  corners_eq := by
    have some := outline.corners_eq
    rw [Forest.leaves_substitute, List.countP_flatMap, outline.sum_map]
    simp only [Function.comp_apply, grows.side_eq, grows.corner_eq]
    change 4 * sides + 1 * (sides - 1) + 1 = 5 * sides
    omega
  unbranched := by
    rw [Forest.branches_substitute, outline.unbranched, outline.sum_map, grows.side_eq,
      grows.corner_eq]
    change 0 + (0 * sides + 0 * (sides - 1)) = 0
    omega

/-- Every side is replaced and every corner copied. -/
theorem census_eq (grows : Grows table) (outline : Outline sides forest) :
    table.census forest = ⟨2 * sides - 1, sides, sides - 1, 0, 2 * (5 * sides) - 1⟩ := by
  have alive : side.isInert = false ∧ corner.isInert = false := by decide
  rw [RuleTable.census, outline.size_eq, (grows.outline_substitute outline).size_eq,
    outline.countP, outline.countP, outline.countP]
  simp [alive, grows.replaced, grows.copied]

end Grows
end Koch

/-! ## Several passes -/

namespace Development

variable {σ : Type}

/-- The island after a number of passes that were begun with a source of chance. -/
structure IsIsland (passes : Nat) (begun : Chance) (system : Development Float σ) : Prop where
  moduleCount : system.moduleCount = 8 * 5 ^ passes - 1
  size : Forest.size system.current = 8 * 5 ^ passes - 1
  sides : (Forest.leaves system.current).countP (·.symbol = ⟨"F"⟩) = 4 * 5 ^ passes
  others : ∀ letter ∈ Forest.leaves system.current,
    letter.symbol ≠ ⟨"F"⟩ → letter.symbol = ⟨"-"⟩
  unbranched : Forest.branches system.current = 0
  generation : system.generation = passes
  /-- The last pass has replaced the sides that there were before it, and has copied the
  corners between them. -/
  report : ∀ earlier, passes = earlier + 1 →
    system.lastPass = some ⟨passes,
      { visited := 8 * 5 ^ earlier - 1
        replaced := 4 * 5 ^ earlier
        copied := 4 * 5 ^ earlier - 1
        dropped := 0
        moduleCount := 8 * 5 ^ passes - 1 }⟩
  /-- No pass has made a draw. -/
  chance : system.chance = begun

/-- Between two passes an island is an outline, and its rules are in force. -/
structure Grown (table : RuleTable Float) (passes : Nat) (begun : Chance)
    (system : Development Float σ) : Prop where
  outline : Koch.Outline (4 * 5 ^ passes) system.current
  rules : system.rules = table
  generation : system.generation = passes
  report : ∀ earlier, passes = earlier + 1 →
    system.lastPass = some ⟨passes,
      ⟨2 * (4 * 5 ^ earlier) - 1, 4 * 5 ^ earlier, 4 * 5 ^ earlier - 1, 0,
        2 * (5 * (4 * 5 ^ earlier)) - 1⟩⟩
  chance : system.chance = begun

namespace Grown

variable {table : RuleTable Float} {passes : Nat} {begun : Chance}
  {system : Development Float σ}

theorem generate (grows : Koch.Grows table) (grown : Grown table passes begun system) :
    ∃ after, system.generate = (.ok (), after) ∧ Grown table (passes + 1) begun after := by
  rcases countsUp_generate grows.free grown.rules with ⟨after, generated, counted⟩
  refine ⟨after, generated, ?_, counted.rules, ?_, ?_, counted.chance.trans grown.chance⟩
  · rw [counted.current, Nat.pow_succ', Nat.mul_left_comm]
    exact grows.outline_substitute grown.outline
  · rw [counted.generation, grown.generation]
  · intro earlier same
    cases same
    rw [counted.report, grown.generation, grows.census_eq grown.outline]

theorem generateMany (grows : Koch.Grows table) (first : Grown table 0 begun system)
    (passes : Nat) :
    ∃ after, system.generateMany passes = (.ok (), after) ∧ Grown table passes begun after := by
  induction passes with
  | zero => exact ⟨system, rfl, first⟩
  | succ passes inductionHypothesis =>
      rcases inductionHypothesis with ⟨before, reached, grown⟩
      rcases grown.generate grows with ⟨after, generated, grownOn⟩
      refine ⟨after, ?_, grownOn⟩
      rw [generateMany_succ, reached]
      exact generated

theorem isIsland (grown : Grown table passes begun system) {start : Forest Float}
    (consistent : system.Consistent start) : IsIsland passes begun system := by
  have size : Forest.size system.current = 8 * 5 ^ passes - 1 := by
    rw [grown.outline.size_eq, ← Nat.mul_assoc]
  exact {
    moduleCount := consistent.moduleCount_eq.trans size
    size := size
    sides := grown.outline.sides_eq
    others := by
      intro letter member other
      rcases grown.outline.plain letter member with rfl | rfl
      · exact absurd rfl other
      · rfl
    unbranched := grown.outline.unbranched
    generation := grown.generation
    report := by
      intro earlier same
      rw [grown.report earlier same, same, Nat.pow_succ', ← Nat.mul_assoc, ← Nat.mul_assoc,
        ← Nat.mul_assoc, ← Nat.mul_assoc]
    chance := grown.chance }

end Grown

/-- An island that has just been created is the one after no passes. -/
theorem grown_create (actions : Actions Float σ) (host : σ) (chance : Chance) :
    ∃ table first, Koch.Grows table ∧
      create Catalog.koch.start Catalog.koch.rules Catalog.koch.ignore actions host chance =
        .ok first ∧
      first.actions = actions ∧ first.host = host ∧ Grown table 0 chance first := by
  rcases Koch.exists_table with ⟨table, accepted, grows⟩
  refine ⟨table, fresh Catalog.koch.start table Catalog.koch.ignore actions host chance, grows,
    ?_, rfl, rfl, Koch.outline_start, rfl, rfl, nofun, rfl⟩
  rw [create, accepted]
  rfl

/-- What it means that an island grows with every pass, whoever has set it up. -/
structure IslandGrows (passes : Nat) : Prop where
  grown : ∀ {σ : Type} (actions : Actions Float σ) (host : σ) (chance : Chance),
    ∃ first after,
      create Catalog.koch.start Catalog.koch.rules Catalog.koch.ignore actions host chance =
        .ok first ∧
      first.generateMany passes = (.ok (), after) ∧ after.IsIsland passes chance
  /-- A turtle that follows the outline draws each of its sides once. -/
  drawn : ∀ (turtle : Turtle) (chance : Chance) {first after : Development Float Turtle},
    create Catalog.koch.start Catalog.koch.rules Catalog.koch.ignore Turtle.actions turtle
        chance = .ok first →
      first.generateMany passes = (.ok (), after) →
      after.render.host.segments = turtle.segments + 4 * 5 ^ passes

theorem islandGrows (passes : Nat) : IslandGrows passes where
  grown := by
    intro σ actions host chance
    rcases grown_create actions host chance with ⟨table, first, grows, created, -, -, begun⟩
    rcases begun.generateMany grows passes with ⟨after, generated, grown⟩
    have consistent := (consistent_create created).generateMany passes
    rw [generated] at consistent
    exact ⟨first, after, created, generated, grown.isIsland consistent⟩
  drawn := by
    intro turtle chance first after created generated
    rcases grown_create Turtle.actions turtle chance with
      ⟨table, other, grows, same, bound, hosted, begun⟩
    cases created.symm.trans same
    rcases begun.generateMany grows passes with ⟨reached, generatedSo, grown⟩
    cases generated.symm.trans generatedSo
    -- Neither the actions nor the turtle are touched by a pass.
    have spared : Spares first (Operation.generateMany passes |>.perform first).2 :=
      Operation.spares_of_generates rfl first
    change Spares first (first.generateMany passes).2 at spared
    rw [generated] at spared
    have crossed := Turtle.crosses_visits grown.outline.unbracketed after.host
    rw [← render_host_eq (spared.actions.trans bound)] at crossed
    rw [crossed.segments, grown.outline.sides_eq, spared.host, hosted]

end Development
end LSystem
