import LSystem.Forest.Visit

namespace LSystem

/-!
# Actions

A generation is rendered by calling an action for each step of a walk over it.
Actions belong to a host, whose state they change.  They are bound to symbols;
the two bracket symbols stand for entering and leaving a branch as well.
-/

/-- What the host does for one step, given the arguments of its module. -/
abbrev Action (V σ : Type) := List V → σ → σ

/-- The actions bound to symbols, at most one to each. -/
structure Actions (V σ : Type) where
  entries : List (Symbol × Action V σ)

namespace Actions

variable {V σ : Type}

def empty : Actions V σ := ⟨[]⟩

/-- The action bound to a symbol. -/
def find? (actions : Actions V σ) (symbol : Symbol) : Option (Action V σ) :=
  (actions.entries.find? fun entry => entry.1 = symbol).map (·.2)

def isBound (actions : Actions V σ) (symbol : Symbol) : Bool := (actions.find? symbol).isSome

/-- Takes the action away from a symbol. -/
def erase (actions : Actions V σ) (symbol : Symbol) : Actions V σ :=
  ⟨actions.entries.filter fun entry => entry.1 ≠ symbol⟩

/-- Binds an action to a symbol, in place of the one it had before. -/
def insert (actions : Actions V σ) (symbol : Symbol) (action : Action V σ) : Actions V σ :=
  ⟨(symbol, action) :: (actions.erase symbol).entries⟩

def size (actions : Actions V σ) : Nat := actions.entries.length

@[simp]
theorem find?_empty (symbol : Symbol) : (empty : Actions V σ).find? symbol = none := rfl

@[simp]
theorem find?_erase (actions : Actions V σ) (symbol other : Symbol) :
    (actions.erase symbol).find? other = if other = symbol then none else actions.find? other := by
  by_cases same : other = symbol
  · simp [find?, erase, same]
  · simp only [find?, erase, List.find?_filter, if_neg same]
    congr 2
    funext entry
    by_cases found : entry.1 = other <;> simp [found, same]

@[simp]
theorem find?_insert (actions : Actions V σ) (symbol other : Symbol) (action : Action V σ) :
    (actions.insert symbol action).find? other =
      if other = symbol then some action else actions.find? other := by
  by_cases same : other = symbol
  · simp [find?, insert, same]
  · have others := find?_erase actions symbol other
    simp_all [find?, insert, Ne.symm same]

/-- Binds actions one after another. -/
def ofList (entries : List (Symbol × Action V σ)) : Actions V σ :=
  entries.foldl (fun actions entry => actions.insert entry.1 entry.2) empty

end Actions
end LSystem
