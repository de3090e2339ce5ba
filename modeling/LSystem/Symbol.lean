namespace LSystem

/-!
# Symbols and signatures

A symbol names a kind of module.  Only its text matters: two symbols are equal
when their texts are, and they are ordered by code points, which is also the
order of their UTF-8 bytes.  A rule looks at a module only through its
signature, the symbol together with the number of arguments.
-/

/-- The name of a kind of module. -/
structure Symbol where
  text : String
deriving DecidableEq

namespace Symbol

/-! ## Reserved symbols -/

/-- Stands for entering a branch, and opens one when it is written as a module. -/
def opening : Symbol := ⟨"["⟩

/-- Stands for leaving a branch, and closes one when it is written as a module. -/
def closing : Symbol := ⟨"]"⟩

/-- Marks a module that no generation hands on. -/
def inert : Symbol := ⟨"!"⟩

/-! ## Order -/

instance : LT Symbol := ⟨fun left right => left.text < right.text⟩

instance (left right : Symbol) : Decidable (left < right) :=
  inferInstanceAs (Decidable (left.text < right.text))

instance : LE Symbol := ⟨fun left right => ¬ right < left⟩

instance (left right : Symbol) : Decidable (left ≤ right) :=
  inferInstanceAs (Decidable (¬ right < left))

end Symbol

/-! ## Signatures -/

/-- What a rule sees of a module: its symbol and how many arguments it has. -/
structure Signature where
  symbol : Symbol
  arity : Nat
deriving DecidableEq

/-- Signatures are ordered by symbol, and those of one symbol by arity. -/
def Signature.precedes (left right : Signature) : Bool :=
  left.symbol < right.symbol || (left.symbol = right.symbol && left.arity < right.arity)

end LSystem
