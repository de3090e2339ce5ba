import LSystem.Development.Generate
import LSystem.Proofs.Cursor.Outline
import LSystem.Proofs.Rule.Chain

namespace LSystem

/-!
# Inert modules

A pass drops an inert module before any rule is asked, so none is ever replaced.  A
lookup knows nothing of inert modules: it passes over the ignored ones, and the inert
symbol is ignored only if the host says so.  Main statement: in a rule that fires, the
strict predecessor is never matched by an inert module, and a context predecessor is
matched by one exactly if it asks for the inert symbol, which it finds only where that
symbol is not ignored.
-/

variable {V : Type}

/-! ## What a lookup finds -/

section Lookups

variable {ignore : List Symbol} {letter : Module V}

/-- A level that is focused on nothing but visible modules shows no ignored one. -/
theorem Level.not_ignored_of_letter? {level : Level V}
    (landed : ∀ element, level.focus = some element → element.isVisible ignore = true)
    (found : level.letter? = some letter) : ignore.contains letter.symbol = false := by
  rw [Level.letter?] at found
  split at found
  · next focused =>
      cases found
      have visible := landed _ focused
      rwa [Element.isVisible_leaf, Bool.not_eq_true'] at visible
  · cases found

theorem Level.not_ignored_of_seekLeft {level : Level V}
    (found : (level.seekLeft (·.isVisible ignore)).letter? = some letter) :
    ignore.contains letter.symbol = false :=
  not_ignored_of_letter? (fun _ => accepts_of_settle) found

theorem Level.not_ignored_of_seekRight {level : Level V}
    (found : (level.seekRight (·.isVisible ignore)).letter? = some letter) :
    ignore.contains letter.symbol = false :=
  not_ignored_of_letter? (fun _ => accepts_of_settle) found

namespace Place

theorem not_ignored_of_climb {level : Level V} {enclosing : List (Level V)}
    (found : (climb ignore level enclosing).found = some letter) :
    ignore.contains letter.symbol = false := by
  induction enclosing generalizing level with
  | nil =>
      rw [climb] at found
      split at found
      · next reached =>
          cases found
          exact Level.not_ignored_of_seekLeft reached
      · cases found
  | cons outer around inductionHypothesis =>
      rw [climb] at found
      split at found
      · next reached =>
          cases found
          exact Level.not_ignored_of_seekLeft reached
      · exact inductionHypothesis found

theorem not_ignored_of_climbAcross {crossed : Bool} {level : Level V}
    {enclosing : List (Level V)}
    (found : (climbAcross ignore crossed level enclosing).found = some letter) :
    ignore.contains letter.symbol = false := by
  have shown {level : Level V} {answer : Module V} {counts : Bool}
      (reached : (level.seekLeft (·.isVisible ignore)).letter? = some answer)
      (found : (if counts = true then some answer else none) = some letter) :
      ignore.contains letter.symbol = false := by
    split at found
    · cases found
      exact Level.not_ignored_of_seekLeft reached
    · cases found
  induction enclosing generalizing level crossed with
  | nil =>
      rw [climbAcross] at found
      split at found
      · next reached => exact shown reached found
      · cases found
  | cons outer around inductionHypothesis =>
      rw [climbAcross] at found
      split at found
      · next reached => exact shown reached found
      · exact inductionHypothesis found

/-- A module that is ignored is not found along any axis. -/
theorem not_ignored_of_found {place : Place V} {axis : Axis}
    (found : (place.lookUp ignore axis).found = some letter) :
    ignore.contains letter.symbol = false := by
  cases axis with
  | previousSiblingOrParent => exact not_ignored_of_climb found
  | previousSibling => exact Level.not_ignored_of_seekLeft found
  | nextSibling => exact Level.not_ignored_of_seekRight found
  | parent => exact not_ignored_of_climbAcross found
  | child =>
      rw [lookUp, child] at found
      split at found
      · exact Level.not_ignored_of_seekRight found
      · cases found

end Place

/-- No module of a chain is ignored. -/
theorem Chain.not_ignored {origin : Place V} {focus : Option (Place V)}
    {context : List ContextPredecessor} {letters : List (Module V)}
    (chain : Chain ignore origin focus context letters) (member : letter ∈ letters) :
    ignore.contains letter.symbol = false := by
  induction chain with
  | done focus => cases member
  | link starts found fits onward inductionHypothesis =>
      rcases List.mem_cons.mp member with rfl | member
      · exact Place.not_ignored_of_found found
      · exact inductionHypothesis member

end Lookups

/-! ## Rules that fire -/

namespace Pass

/-- A rule fires in a step of a pass.  The step comes to a module and replaces it, or
fails for want of a successor to choose, and the rule is the one that matches first; its
strict predecessor is matched by the module and the others by the modules of its chain. -/
structure Fires (table : RuleTable V) (ignore : List Symbol) (chance : Chance) (pass : Pass V)
    (rule : CompiledRule V) (letter : Module V) (letters : List (Module V)) : Prop where
  acts : (∃ next after, pass.step table ignore chance = (.ok next, after) ∧
      next.tally.replaced = pass.tally.replaced + 1) ∨
    ∃ error after, pass.step table ignore chance = (.error (.configuration error), after)
  first : ∃ cursor, pass.cursor.next = .ok (.leaf letter, cursor) ∧
    (∃ arguments, table.firing? ignore letter cursor.position = some (rule, arguments)) ∧
    Chain ignore cursor.position (some cursor.position) rule.context letters

namespace Fires

variable {table : RuleTable V} {ignore : List Symbol} {chance : Chance} {pass : Pass V}
  {rule : CompiledRule V} {letter : Module V} {letters : List (Module V)}

/-- An inert module is dropped before any rule is asked. -/
theorem strict_alive (fires : pass.Fires table ignore chance rule letter letters) :
    letter.isInert = false := by
  rcases fires.first with ⟨cursor, produced, -, -⟩
  rw [← Bool.not_eq_true]
  intro inert
  have dropped : pass.step table ignore chance =
      (.ok ⟨cursor, pass.draft, pass.tally.visit.drop⟩, chance) := by
    unfold step writeLetter
    rw [produced]
    exact if_pos inert
  rcases fires.acts with ⟨next, after, taken, counted⟩ | ⟨error, after, failed⟩
  · cases dropped.symm.trans taken
    exact absurd counted (Nat.ne_of_lt (Nat.lt_succ_self _))
  · cases dropped.symm.trans failed

/-- Whatever fires, its strict predecessor is matched by a module that is not inert.  A
context predecessor is matched by an inert module exactly if it asks for the inert symbol,
and never where that symbol is ignored. -/
theorem inert_iff_asked (fires : pass.Fires table ignore chance rule letter letters) :
    letter.isInert = false ∧
      letters.map (·.isInert) =
        rule.context.map (fun predecessor => decide (predecessor.signature.symbol = .inert)) ∧
      (Symbol.inert ∈ ignore → ∀ found ∈ letters, found.isInert = false) := by
  rcases fires.first with ⟨cursor, -, -, chain⟩
  refine ⟨fires.strict_alive, ?_, ?_⟩
  · have same := congrArg (List.map fun signature : Signature =>
      decide (signature.symbol = .inert)) chain.signatures
    rwa [List.map_map, List.map_map] at same
  · intro ignored found member
    rw [← Bool.not_eq_true]
    intro inert
    have named : found.symbol = .inert := of_decide_eq_true inert
    have seen := chain.not_ignored member
    rw [named, List.contains_iff_mem.mpr ignored] at seen
    cases seen

end Fires
end Pass

/-! ## A rule that asks for an inert module -/

namespace Thorn

/-- A bud next to a module that has become inert. -/
def forest : Forest Nat := [.leaf (.plain ⟨"bud"⟩), .leaf (.plain .inert)]

/-- A bud flowers if the next module is inert. -/
def rules : List (Rule Nat) :=
  [.certain [.strict ⟨"bud"⟩ 0, .toward .inert 0 ">"] fun _ => [.leaf (.plain ⟨"flower"⟩)]]

/-- The rule after the checks. -/
def flowering : CompiledRule Nat :=
  ⟨0, ⟨⟨"bud"⟩, 0⟩, [⟨⟨.inert, 0⟩, ⟨.nextSibling, false⟩⟩], none,
    [⟨1.0, fun _ => [.leaf (.plain ⟨"flower"⟩)]⟩]⟩

def table : RuleTable Nat := ⟨[⟨⟨⟨"bud"⟩, 0⟩, [flowering]⟩]⟩

theorem flowering_fires :
    (Pass.start forest).Fires table [] (.scripted []) flowering (.plain ⟨"bud"⟩)
      [.plain .inert] where
  acts := .inl ⟨_, _, rfl, rfl⟩
  first := ⟨_, rfl, ⟨_, rfl⟩, .link rfl rfl rfl (.done _)⟩

/-- The rule fires on the bud although the module of its context is inert, and in the next
generation the bud has flowered. -/
theorem fires_beside_inert :
    RuleTable.ofRules rules = .ok table ∧
      (Pass.start forest).Fires table [] (.scripted []) flowering (.plain ⟨"bud"⟩)
        [.plain .inert] ∧
      (Module.plain .inert : Module Nat).isInert = true ∧
      ∃ first after : Development Nat Unit,
        Development.create forest rules [] .empty () (.scripted []) = .ok first ∧
          first.generate = (.ok (), after) ∧
          after.current = [.leaf (.plain ⟨"flower"⟩)] :=
  ⟨rfl, flowering_fires, rfl, _, _, rfl, rfl, rfl⟩

/-- What has fired there asks for an inert module, and does not replace one. -/
theorem bud_inert_iff_asked :
    (Pass.start forest).Fires table [] (.scripted []) flowering (.plain ⟨"bud"⟩)
        [.plain .inert] ∧
      (Module.plain ⟨"bud"⟩ : Module Nat).isInert = false ∧
      [(Module.plain .inert : Module Nat)].map (·.isInert) =
        flowering.context.map fun predecessor =>
          decide (predecessor.signature.symbol = .inert) := by
  rcases flowering_fires.inert_iff_asked with ⟨alive, asked, -⟩
  exact ⟨flowering_fires, alive, asked⟩

end Thorn
end LSystem
