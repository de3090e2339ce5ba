import LSystem.Symbol

namespace LSystem

/-!
# Forests

One generation is a forest: a sequence of modules and branches, where a branch
holds a forest again.  A module carries argument values of a type `V` that this
library never looks into.

A branch that follows a module is rooted at it.  Branches may also be spelled
with explicit bracket modules; those stay ordinary leaves of the forest.
-/

/-- A letter of the L-system: a symbol with its arguments in order. -/
structure Module (V : Type) where
  symbol : Symbol
  arguments : List V

namespace Module

variable {V : Type}

/-- A module without arguments. -/
def plain (symbol : Symbol) : Module V := ⟨symbol, []⟩

def arity (letter : Module V) : Nat := letter.arguments.length

def signature (letter : Module V) : Signature := ⟨letter.symbol, letter.arity⟩

/-- The inert symbol makes a module inert, whatever its arguments are. -/
def isInert (letter : Module V) : Bool := letter.symbol = Symbol.inert

end Module

/-- One slot of a forest. -/
inductive Element (V : Type) where
  | leaf (letter : Module V)
  | branch (contents : List (Element V))

/-- An ordered sequence of modules and branches. -/
abbrev Forest (V : Type) := List (Element V)

variable {V : Type}

/-! ## Induction -/

/-- To prove a property of all forests it is enough to add one element in
front, a leaf or a branch whose contents have the property as well. -/
theorem Forest.induction {motive : Forest V → Prop} (nil : motive [])
    (leaf : ∀ first rest, motive rest → motive (.leaf first :: rest))
    (branch : ∀ contents rest, motive contents → motive rest →
      motive (.branch contents :: rest))
    (forest : Forest V) : motive forest :=
  @Element.rec_1 V (fun element => ∀ rest, motive rest → motive (element :: rest)) motive
    leaf (fun contents inContents rest => branch contents rest inContents) nil
    (fun _ rest inElement inRest => inElement rest inRest) forest

/-! ## Size -/

mutual

/-- The number of steps that a walk spends on one element. -/
def Element.size : Element V → Nat
  | .leaf _ => 1
  | .branch contents => Forest.size contents + 2

/-- The number of steps that a walk over a forest takes: one for each module
and two for each branch, which is entered and left. -/
def Forest.size : Forest V → Nat
  | [] => 0
  | element :: rest => element.size + Forest.size rest

end

attribute [simp] Element.size Forest.size

@[simp]
theorem Forest.size_append (first second : Forest V) :
    Forest.size (first ++ second) = Forest.size first + Forest.size second := by
  induction first with
  | nil => simp
  | cons element rest inductionHypothesis => simp [inductionHypothesis, Nat.add_assoc]

/-! ## Leaves -/

mutual

/-- The modules of one element, depth first. -/
def Element.leaves : Element V → List (Module V)
  | .leaf letter => [letter]
  | .branch contents => Forest.leaves contents

/-- The modules of a forest, depth first and from left to right. -/
def Forest.leaves : Forest V → List (Module V)
  | [] => []
  | element :: rest => element.leaves ++ Forest.leaves rest

end

attribute [simp] Element.leaves Forest.leaves

@[simp]
theorem Forest.leaves_append (first second : Forest V) :
    Forest.leaves (first ++ second) = Forest.leaves first ++ Forest.leaves second := by
  induction first with
  | nil => rfl
  | cons element rest inductionHypothesis => simp [inductionHypothesis]

/-- A leaf for each symbol, in order and without arguments. -/
def Forest.ofSymbols (symbols : List Symbol) : Forest V :=
  symbols.map fun symbol => .leaf (.plain symbol)

end LSystem
