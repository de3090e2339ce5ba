import LSystem.Description.Format
import LSystem.Development.Basic

namespace LSystem

/-!
# Descriptions of systems

A system is described by how far it has got, not by what it holds.
-/

open Description

def Development.describe {V σ : Type} (system : Development V σ) : String :=
  record "LSystem"
    [("generation", toString system.generation),
      ("module_count", toString system.moduleCount),
      ("rules", toString system.rules.size),
      ("actions", toString system.actions.size),
      ("pass_in_progress", boolean system.pass.isSome),
      ("render_in_progress", boolean system.rendering.isSome)]

end LSystem
