import LSystem.Rule.Basic

namespace LSystem

/-!
# The catalog

The grammars that the program can run, by name.
-/

/-- What is needed to set a system up. -/
structure Grammar where
  start : Forest Float
  rules : List (Rule Float)
  ignore : List Symbol

/-- A grammar to show, and how many generations of it are worth looking at. -/
structure Demo where
  name : String
  summary : String
  generations : Nat
  grammar : Grammar

namespace Catalog

/-- One module without arguments for each character of a word. -/
def spell (word : String) : Forest Float :=
  .ofSymbols (word.toList.map fun character => ⟨String.singleton character⟩)

/-- One module with arguments. -/
def single (symbol : String) (arguments : List Float) : Element Float :=
  .leaf ⟨⟨symbol⟩, arguments⟩

/-- The module that a rule replaces. -/
def strict (symbol : String) (arity : Nat) : Predecessor := .strict ⟨symbol⟩ arity

/-! ## Koch -/

/-- Every side of a square island becomes five sides. -/
def koch : Grammar where
  start := spell "F-F-F-F"
  rules := [.certain [strict "F" 0] fun _ => spell "FF-F--F-F"]
  ignore := []

/-! ## Signal -/

/-- What becomes of a digit depends on what stands to its left, or at the foot of
its branch, and on what stands to its right. -/
def keyed (digit left right : String) (replacement : Forest Float) : Rule Float :=
  .certain [strict digit 0, .toward ⟨left⟩ 0 "^", .toward ⟨right⟩ 0 ".>"] fun _ => replacement

/-- A signal of digits that travels along a branching structure.  The symbols of
the turtle are invisible to it. -/
def signal : Grammar where
  start := spell "F1F1F1"
  rules :=
    [keyed "0" "0" "0" (spell "0"),
      keyed "0" "0" "1" (spell "1" ++ [.branch (spell "-F1F1")]),
      keyed "1" "0" "0" (spell "1"),
      keyed "1" "0" "1" (spell "1"),
      keyed "0" "1" "0" (spell "0"),
      keyed "0" "1" "1" (spell "1F1"),
      keyed "1" "1" "0" (spell "1"),
      keyed "1" "1" "1" (spell "0"),
      .certain [strict "+" 0] fun _ => spell "-",
      .certain [strict "-" 0] fun _ => spell "+"]
  ignore := [⟨"F"⟩, ⟨"+"⟩, ⟨"-"⟩]

/-! ## Weed -/

/-- A shoot to the left of the stem. -/
def leftShoot : Element Float := .branch (spell "+F")

/-- A shoot to the right of the stem. -/
def rightShoot : Element Float := .branch (spell "-F")

/-- One segment of the stem. -/
def stem : Element Float := single "F" []

/-- A segment grows and puts out shoots on both sides or on one of them, as chance
has it. -/
def weed : Grammar where
  start := spell "F"
  rules :=
    [{ predecessors := [strict "F" 0]
       condition := none
       successors :=
        [⟨0.25, fun _ => [stem, leftShoot, stem, rightShoot, stem]⟩,
          ⟨0.25, fun _ => [stem, leftShoot, stem]⟩,
          ⟨0.5, fun _ => [stem, rightShoot, stem]⟩] }]
  ignore := []

/-! ## Growth -/

/-- The first argument of a module, or zero if it has none. -/
def first (arguments : List Float) : Float := arguments.head?.getD 0.0

/-- An apex that grows longer until it flowers.  Its side shoots are cut off when
they are old enough. -/
def growth : Grammar where
  start := [single "A" [1.0]]
  rules :=
    [(Rule.certain [strict "A" 1] fun arguments =>
        [single "F" [first arguments], .branch [single "+" [], single "S" [0.0]],
          single "A" [first arguments + 1.0]]).onlyIf fun arguments => first arguments < 5.0,
      .certain [strict "A" 1] fun _ => spell "K",
      (Rule.certain [strict "S" 1] fun _ => [.leaf (.plain .inert)]).onlyIf fun arguments =>
        first arguments ≥ 2.0,
      .certain [strict "S" 1] fun arguments => [single "S" [first arguments + 1.0]]]
  ignore := []

/-! ## All of them -/

/-- Every grammar, in the order of their names. -/
def demos : List Demo :=
  [⟨"growth", "parametric apex growth with a guard", 6, growth⟩,
    ⟨"koch", "quadratic Koch island", 3, koch⟩,
    ⟨"signal", "context-sensitive signal propagation", 30, signal⟩,
    ⟨"weed", "stochastic branching weed", 5, weed⟩]

/-- Looks a grammar up by its exact name. -/
def find? (name : String) : Option Demo := demos.find? fun demo => demo.name = name

end Catalog
end LSystem
