import LSystem.Generation.Pass
import LSystem.Rendering.Basic

namespace LSystem

/-!
# L-systems

An L-system starts from a forest and makes one generation from the other.  Its
current generation changes only when a pass is completed.  A pass or a rendering
that has been begun is parked in the system until its next step.
-/

/-- An L-system and where it has got to.  The host's state changes only through
the actions. -/
structure Development (V σ : Type) where
  start : Forest V
  rules : RuleTable V
  ignore : List Symbol
  actions : Actions V σ
  host : σ
  chance : Chance
  current : Forest V
  generation : Nat
  moduleCount : Nat
  pass : Option (Pass V)
  rendering : Option (Rendering V)
  lastPass : Option PassReport
  lastRendering : Option RenderTally

namespace Development

variable {V σ : Type}

/-- A system at generation zero. -/
def fresh (start : Forest V) (rules : RuleTable V) (ignore : List Symbol) (actions : Actions V σ)
    (host : σ) (chance : Chance) : Development V σ :=
  { start, rules, ignore, actions, host, chance
    current := start
    generation := 0
    moduleCount := Forest.size start
    pass := none
    rendering := none
    lastPass := none
    lastRendering := none }

/-- Sets a system up.  A start without any element is refused, even before the
rules are looked at. -/
def create (start : Forest V) (rules : List (Rule V)) (ignore : List Symbol)
    (actions : Actions V σ) (host : σ) (chance : Chance) :
    Except ConfigurationError (Development V σ) :=
  if start.isEmpty then .error .emptyStart
  else (RuleTable.ofRules rules).map fun table => fresh start table ignore actions host chance

/-- Back to generation zero.  Whatever was in progress is abandoned and reports
are forgotten; rules, actions and the source of chance stay as they are. -/
def reset (system : Development V σ) : Development V σ :=
  { system with
    current := system.start
    generation := 0
    moduleCount := Forest.size system.start
    pass := none
    rendering := none
    lastPass := none
    lastRendering := none }

/-- No field is forgotten: a system that has been reset is as good as new. -/
theorem reset_eq_fresh (system : Development V σ) :
    system.reset =
      fresh system.start system.rules system.ignore system.actions system.host system.chance :=
  rfl

/-- Puts other rules in place.  A pass in progress goes on with them.  If they
are faulty the old ones stay. -/
def setRules (rules : List (Rule V)) (system : Development V σ) :
    Except ConfigurationError (Development V σ) :=
  (RuleTable.ofRules rules).map fun table => { system with rules := table }

def bind (symbol : Symbol) (action : Action V σ) (system : Development V σ) : Development V σ :=
  { system with actions := system.actions.insert symbol action }

def unbind (symbol : Symbol) (system : Development V σ) : Development V σ :=
  { system with actions := system.actions.erase symbol }

end Development
end LSystem
