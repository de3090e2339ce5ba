import LSystem.Proofs.Rule.Sight
import Mathlib.Data.List.Forall2

namespace LSystem

/-!
# Hidden modules

To a match an ignored module is as good as absent.  Main statement: when any ignored
modules are cleared away from a forest, wherever they stand and as many as one likes,
then at the leaves that remain every rule is matched as before.  Branches stay, also
when nothing remains in them.
-/

variable {V : Type}

/-! ## Clearing modules away -/

section Clearing

variable (ignore : List Symbol) (chosen : Nat → Bool)

mutual

/-- An element without those of its ignored modules that a walk meets at chosen steps. -/
def Element.cleared (step : Nat) : Element V → Forest V
  | .leaf letter => if chosen step && ignore.contains letter.symbol then [] else [.leaf letter]
  | .branch contents => [.branch (Forest.cleared (step + 1) contents)]

/-- A forest without those of its ignored modules that a walk meets at chosen steps,
if the walk meets the forest at a given one. -/
def Forest.cleared (step : Nat) : Forest V → Forest V
  | [] => []
  | element :: rest => element.cleared step ++ Forest.cleared (step + element.size) rest

end

/-- Whether a leaf is still there afterwards. -/
def Site.remains (site : Site V) : Bool :=
  !(chosen site.step && ignore.contains site.letter.symbol)

end Clearing

/-! ## What is not hidden -/

section Unhidden

variable (ignore : List Symbol)

mutual

/-- What is left of an element without any ignored modules. -/
def Element.unhidden? : Element V → Option (Element V)
  | .leaf letter => if ignore.contains letter.symbol then none else some (.leaf letter)
  | .branch contents => some (.branch (Forest.unhidden contents))

/-- What is left of a forest without any ignored modules. -/
def Forest.unhidden : Forest V → Forest V
  | [] => []
  | element :: rest => element.unhidden?.toList ++ Forest.unhidden rest

end

theorem Forest.unhidden_eq_filterMap (forest : Forest V) :
    forest.unhidden ignore = forest.filterMap (Element.unhidden? ignore) := by
  induction forest with
  | nil => rfl
  | cons element rest inductionHypothesis =>
      rw [Forest.unhidden, inductionHypothesis, List.filterMap_cons]
      cases element.unhidden? ignore <;> rfl

theorem Element.unhidden?_of_ignored {ignore : List Symbol} {letter : Module V}
    (ignored : ignore.contains letter.symbol = true) :
    (Element.leaf letter).unhidden? ignore = none := by
  rw [Element.unhidden?, if_pos ignored]

theorem goesInward_unhidden : GoesInward (V := V) (Element.unhidden? ignore) := by
  intro contents
  rw [Element.unhidden?, Forest.unhidden_eq_filterMap]

theorem outlining_unhidden : Outlining (V := V) ignore (Element.unhidden? ignore) where
  omitted element left := by
    cases element with
    | leaf letter =>
        rw [Element.unhidden?] at left
        by_cases ignored : ignore.contains letter.symbol = true
        · exact ignored
        · rw [if_neg ignored] at left
          cases left
    | branch contents => cases left
  drawn element other shown := by
    cases element with
    | leaf letter =>
        rw [Element.unhidden?] at shown
        by_cases ignored : ignore.contains letter.symbol = true
        · rw [if_pos ignored] at shown
          cases shown
        · rw [if_neg ignored] at shown
          cases shown
          rfl
    | branch contents =>
        cases shown
        rfl

end Unhidden

/-! ## What remains -/

section Remaining

variable (ignore : List Symbol) (chosen : Nat → Bool)

/-- What is not hidden stays when hidden modules are cleared away. -/
theorem Forest.unhidden_cleared (step : Nat) (forest : Forest V) :
    (forest.cleared ignore chosen step).filterMap (Element.unhidden? ignore) =
      forest.filterMap (Element.unhidden? ignore) := by
  induction forest using Forest.induction generalizing step with
  | nil => rfl
  | leaf first rest inRest =>
      rw [Forest.cleared, Element.cleared, List.filterMap_append, inRest, List.filterMap_cons]
      by_cases gone : (chosen step && ignore.contains first.symbol) = true
      · rw [if_pos gone, Element.unhidden?_of_ignored (Bool.and_eq_true_iff.mp gone).2]
        rfl
      · rw [if_neg gone, List.filterMap_cons]
        cases (Element.leaf first).unhidden? ignore <;> rfl
  | branch contents rest inContents inRest =>
      rw [Forest.cleared, Element.cleared, List.filterMap_append, inRest, List.filterMap_cons,
        List.filterMap_cons, goesInward_unhidden, goesInward_unhidden, inContents]
      rfl

/-- What a match can tell of a site. -/
def Site.sketch (site : Site V) : Module V × Place V :=
  (site.letter, site.place.outlined (Element.unhidden? ignore))

/-- A level is outlined by what is not hidden on both sides of its focus. -/
theorem Level.outlined_eq {left before right ahead : List (Element V)} {element other : Element V}
    (beside : before.filterMap (Element.unhidden? ignore) =
      left.filterMap (Element.unhidden? ignore))
    (here : other.unhidden? ignore = element.unhidden? ignore)
    (beyond : ahead.filterMap (Element.unhidden? ignore) =
      right.filterMap (Element.unhidden? ignore)) :
    Level.outlined (Element.unhidden? ignore) ⟨before, some other, ahead⟩ =
      Level.outlined (Element.unhidden? ignore) ⟨left, some element, right⟩ := by
  rw [Level.outlined, Level.outlined, beside, Option.bind_some, here, Option.bind_some, beyond]

/-- Two leaves with the same module look alike if what is not hidden around them is the
same. -/
theorem Site.sketch_leaf {enclosing around : List (Level V)}
    {left before right ahead : List (Element V)} (step position : Nat) (letter : Module V)
    (outside : around.map (·.outlined (Element.unhidden? ignore)) =
      enclosing.map (·.outlined (Element.unhidden? ignore)))
    (beside : before.filterMap (Element.unhidden? ignore) =
      left.filterMap (Element.unhidden? ignore))
    (beyond : ahead.filterMap (Element.unhidden? ignore) =
      right.filterMap (Element.unhidden? ignore)) :
    Site.sketch ignore ⟨position, letter, ⟨⟨before, some (.leaf letter), ahead⟩, around⟩⟩ =
      Site.sketch ignore ⟨step, letter, ⟨⟨left, some (.leaf letter), right⟩, enclosing⟩⟩ := by
  have level := Level.outlined_eq ignore beside
    (rfl : (Element.leaf letter).unhidden? ignore = _) beyond
  rw [Site.sketch, Site.sketch, Place.outlined, Place.outlined, outside, level]

/-- The leaves that remain are those of the forest that remains, in the same order, and
they look alike. -/
theorem Forest.sketch_cleared (forest : Forest V) {enclosing around : List (Level V)}
    {left before : List (Element V)} (step position : Nat)
    (outside : around.map (·.outlined (Element.unhidden? ignore)) =
      enclosing.map (·.outlined (Element.unhidden? ignore)))
    (beside : before.filterMap (Element.unhidden? ignore) =
      left.filterMap (Element.unhidden? ignore)) :
    (Forest.sites around before position (forest.cleared ignore chosen step)).map
        (·.sketch ignore) =
      ((Forest.sites enclosing left step forest).filter (·.remains ignore chosen)).map
        (·.sketch ignore) := by
  -- What lies to the left and around is not the same in both forests, but it is in outline.
  induction forest using Forest.induction generalizing enclosing around left before step position
    with
  | nil => rfl
  | leaf first rest inRest =>
      have ahead := Forest.unhidden_cleared ignore chosen (step + (Element.leaf first).size) rest
      rw [Forest.cleared, Element.cleared, Forest.sites, Element.sites, List.filter_append,
        List.map_append]
      by_cases gone : (chosen step && ignore.contains first.symbol) = true
      · have ignored := Element.unhidden?_of_ignored (Bool.and_eq_true_iff.mp gone).2
        have besideNext : before.filterMap (Element.unhidden? ignore) =
            (Element.leaf first :: left).filterMap (Element.unhidden? ignore) := by
          rw [List.filterMap_cons_none ignored, beside]
        rw [if_pos gone, List.nil_append, inRest _ position outside besideNext,
          List.filter_cons_of_neg, List.filter_nil, List.map_nil, List.nil_append]
        simp only [Site.remains, gone, Bool.not_true, Bool.false_eq_true, not_false_eq_true]
      · have besideNext : (Element.leaf first :: before).filterMap (Element.unhidden? ignore) =
            (Element.leaf first :: left).filterMap (Element.unhidden? ignore) := by
          rw [List.filterMap_cons, List.filterMap_cons, beside]
        rw [if_neg gone, List.singleton_append, Forest.sites, Element.sites, List.map_append,
          inRest _ _ outside besideNext, List.filter_cons_of_pos, List.filter_nil,
          List.map_singleton, List.map_singleton,
          Site.sketch_leaf ignore step position first outside beside ahead]
        simp only [Site.remains, gone, Bool.not_false]
  | branch contents rest inContents inRest =>
      have ahead := Forest.unhidden_cleared ignore chosen (step + (Element.branch contents).size) rest
      have inside := Forest.unhidden_cleared ignore chosen (step + 1) contents
      have here : (Element.branch (contents.cleared ignore chosen (step + 1))).unhidden? ignore =
          (Element.branch contents).unhidden? ignore := by
        rw [goesInward_unhidden, goesInward_unhidden, inside]
      have outer := Level.outlined_eq ignore beside here ahead
      have besideNext : (Element.branch (contents.cleared ignore chosen (step + 1)) ::
          before).filterMap (Element.unhidden? ignore) =
            (Element.branch contents :: left).filterMap (Element.unhidden? ignore) := by
        rw [List.filterMap_cons, List.filterMap_cons, here, beside]
      rw [Forest.cleared, Element.cleared, List.singleton_append, Forest.sites, Element.sites,
        Forest.sites, Element.sites, List.filter_append, List.map_append, List.map_append,
        inRest _ _ outside besideNext, inContents _ _ _ rfl]
      rw [List.map_cons, List.map_cons, outside, outer]

end Remaining

/-! ## Matching without them -/

/-- Any ignored modules may be cleared away from a forest: the leaves that remain are met
in the same order, and every rule is matched at each of them as before. -/
theorem matchedAlike_cleared (forest : Forest V) (ignore : List Symbol) (chosen : Nat → Bool)
    (rule : CompiledRule V) :
    List.Forall₂ (MatchedAlike ignore rule forest (forest.cleared ignore chosen 0))
      (forest.allSites.filter (·.remains ignore chosen))
      (forest.cleared ignore chosen 0).allSites := by
  have sketches : ((forest.cleared ignore chosen 0).allSites).map (·.sketch ignore) =
      (forest.allSites.filter (·.remains ignore chosen)).map (·.sketch ignore) :=
    Forest.sketch_cleared ignore chosen forest 0 0 rfl rfl
  have sameLength := congrArg List.length sketches
  rw [List.length_map, List.length_map] at sameLength
  rw [List.forall₂_iff_get]
  refine ⟨sameLength.symm, ?_⟩
  intro number bound boundToo
  have sketch := congrArg (fun sites => sites[number]?) sketches
  simp only [List.getElem?_map, List.getElem?_eq_getElem bound,
    List.getElem?_eq_getElem boundToo, Option.map_some, Option.some.injEq] at sketch
  rcases Prod.mk.inj sketch with ⟨letter, place⟩
  have member := (List.mem_filter.mp (List.getElem_mem bound)).1
  have memberToo := List.getElem_mem boundToo
  exact (outlining_unhidden ignore).matchedAlike (fun _ _ _ => goesInward_unhidden ignore) member
    memberToo letter place

/-- A branch stays when the last module in it is cleared away. -/
example :
    Forest.cleared [⟨"-"⟩] (fun _ => true) 0
        [.leaf (.plain ⟨"F"⟩), .leaf (.plain ⟨"-"⟩), .branch [.leaf (.plain ⟨"-"⟩)]] =
      ([.leaf (.plain ⟨"F"⟩), .branch []] : Forest Nat) := rfl

end LSystem
