import LSystem.Proofs.Cursor.Numbering

namespace LSystem

/-!
# Outlines

An outline of a level leaves out ignored modules, as many of them as one likes, and
may change what its branches hold.  A lookup takes no notice of that: it skips an
ignored module whether it is there or not, and it looks into a branch only when it
goes down.  Main statement: a lookup from the outline of a place is the outline of
the lookup from the place, so it finds the same module; for a lookup that goes down
the contents of branches have to be outlined in the same way.
-/

variable {V : Type}

/-! ## Outlines of levels -/

/-- A way of drawing elements in which a lookup sees the same. -/
structure Outlining (ignore : List Symbol) (outline : Element V → Option (Element V)) :
    Prop where
  /-- Nothing but ignored modules is left out. -/
  omitted : ∀ element, outline element = none → element.isIgnored ignore = true
  /-- What is drawn is the same module, or a branch for a branch. -/
  drawn : ∀ element other, outline element = some other → other.letter? = element.letter?

/-- The contents of a branch are outlined like those of any level. -/
def GoesInward (outline : Element V → Option (Element V)) : Prop :=
  ∀ contents, outline (.branch contents) = some (.branch (contents.filterMap outline))

/-- A level with its elements outlined.  The focus is vacant if it was on an element
that is left out. -/
def Level.outlined (outline : Element V → Option (Element V)) (level : Level V) : Level V :=
  ⟨level.left.filterMap outline, level.focus.bind outline, level.right.filterMap outline⟩

/-- A place with all its levels outlined. -/
def Place.outlined (outline : Element V → Option (Element V)) (place : Place V) : Place V :=
  ⟨place.level.outlined outline, place.enclosing.map (·.outlined outline)⟩

/-- A lookup that has found the same and stops where the outline has it. -/
def Lookup.outlined (outline : Element V → Option (Element V)) (lookup : Lookup V) : Lookup V :=
  ⟨lookup.found, lookup.place.map (·.outlined outline)⟩

/-! ## What a search accepts -/

/-- A search that refuses whatever is left out, and does not tell what is drawn from
what it is drawn for. -/
structure SeesThrough (accepts : Element V → Bool) (outline : Element V → Option (Element V)) :
    Prop where
  omitted : ∀ element, outline element = none → accepts element = false
  drawn : ∀ element other, outline element = some other → accepts other = accepts element

theorem Element.isBranch_eq_of_letter? {element other : Element V}
    (same : other.letter? = element.letter?) : other.isBranch = element.isBranch := by
  cases other <;> cases element <;> first | rfl | cases same

theorem Element.isIgnored_eq_of_letter? {element other : Element V} (ignore : List Symbol)
    (same : other.letter? = element.letter?) :
    other.isIgnored ignore = element.isIgnored ignore := by
  cases other <;> cases element <;> cases same <;> rfl

namespace Outlining

variable {ignore : List Symbol} {outline : Element V → Option (Element V)}

theorem seesThrough_visible (outlining : Outlining ignore outline) :
    SeesThrough (·.isVisible ignore) outline where
  omitted element left := by
    rw [Element.isVisible, outlining.omitted element left, Bool.not_true, Bool.and_false]
  drawn element other shown := by
    have same := outlining.drawn element other shown
    rw [Element.isVisible, Element.isVisible, Element.isBranch_eq_of_letter? same,
      Element.isIgnored_eq_of_letter? ignore same]

theorem seesThrough_unignored (outlining : Outlining ignore outline) :
    SeesThrough (fun element => !element.isIgnored ignore) outline where
  omitted element left := by
    rw [outlining.omitted element left, Bool.not_true]
  drawn element other shown := by
    rw [Element.isIgnored_eq_of_letter? ignore (outlining.drawn element other shown)]

end Outlining

/-! ## Searching a level -/

namespace Level

variable {accepts : Element V → Bool} {outline : Element V → Option (Element V)}

theorem settle_outlined (sees : SeesThrough accepts outline) (passed ahead : List (Element V)) :
    settle accepts (passed.filterMap outline) (ahead.filterMap outline) =
      (settle accepts passed ahead).outlined outline := by
  induction ahead generalizing passed with
  | nil => rfl
  | cons element rest inductionHypothesis =>
      have further := inductionHypothesis (element :: passed)
      rcases shown : outline element with _ | other
      · rw [List.filterMap_cons_none shown] at further
        rw [List.filterMap_cons_none shown, settle, sees.omitted element shown]
        exact further
      · rw [List.filterMap_cons_some shown] at further
        rw [List.filterMap_cons_some shown, settle, settle, sees.drawn element other shown]
        by_cases accepted : accepts element = true
        · rw [if_pos accepted, if_pos accepted, outlined, Option.bind_some, shown]
        · rw [if_neg accepted, if_neg accepted]
          exact further

theorem seekRight_outlined (sees : SeesThrough accepts outline) (level : Level V) :
    (level.outlined outline).seekRight accepts = (level.seekRight accepts).outlined outline := by
  have passed : (level.focus.bind outline).toList ++ level.left.filterMap outline =
      (level.focus.toList ++ level.left).filterMap outline := by
    rcases level.focus with _ | element
    · rfl
    · rcases shown : outline element with _ | other <;> simp [shown]
  rw [seekRight, seekRight, ← settle_outlined sees, ← passed]
  rfl

theorem seekLeft_outlined (sees : SeesThrough accepts outline) (level : Level V) :
    (level.outlined outline).seekLeft accepts = (level.seekLeft accepts).outlined outline := by
  have flipped := seekRight_outlined sees level.flip
  exact congrArg flip flipped

/-- A search lands on nothing but what it accepts. -/
theorem accepts_of_settle {passed ahead : List (Element V)} {element : Element V}
    (landed : (settle accepts passed ahead).focus = some element) : accepts element = true := by
  induction ahead generalizing passed with
  | nil => cases landed
  | cons first rest inductionHypothesis =>
      rw [settle] at landed
      by_cases accepted : accepts first = true
      · rw [if_pos accepted] at landed
        cases landed
        exact accepted
      · rw [if_neg accepted] at landed
        exact inductionHypothesis landed

end Level

/-! ## Lookups -/

namespace Outlining

variable {ignore : List Symbol} {outline : Element V → Option (Element V)}

/-- A level that is focused on a visible module, or on none, shows the same in outline. -/
theorem letter?_outlined (outlining : Outlining ignore outline) {level : Level V}
    (landed : ∀ element, level.focus = some element → element.isVisible ignore = true) :
    (level.outlined outline).letter? = level.letter? := by
  rw [Level.letter?_eq, Level.letter?_eq, Level.outlined]
  rcases focus : level.focus with _ | element
  · rfl
  · rw [Option.bind_some, Option.bind_some]
    rcases shown : outline element with _ | other
    · have refused := outlining.seesThrough_visible.omitted element shown
      rw [landed element focus] at refused
      cases refused
    · exact outlining.drawn element other shown

theorem letter?_seekLeft (outlining : Outlining ignore outline) (level : Level V) :
    ((level.seekLeft (·.isVisible ignore)).outlined outline).letter? =
      (level.seekLeft (·.isVisible ignore)).letter? := by
  apply outlining.letter?_outlined
  intro element landed
  exact Level.accepts_of_settle landed

theorem letter?_seekRight (outlining : Outlining ignore outline) (level : Level V) :
    ((level.seekRight (·.isVisible ignore)).outlined outline).letter? =
      (level.seekRight (·.isVisible ignore)).letter? := by
  apply outlining.letter?_outlined
  intro element landed
  exact Level.accepts_of_settle landed

/-- Branches are drawn, so it shows whether one has been passed. -/
theorem passesBranch_outlined (outlining : Outlining ignore outline) (level : Level V) :
    (level.outlined outline).passesBranch ignore = level.passesBranch ignore := by
  rcases level with ⟨left, focus, right⟩
  simp only [Level.passesBranch, Level.outlined]
  induction left with
  | nil => rfl
  | cons element rest inductionHypothesis =>
      rcases shown : outline element with _ | other
      · have hidden := outlining.seesThrough_visible.omitted element shown
        have leaf : element.isBranch = false := by
          have ignored := outlining.omitted element shown
          cases element with
          | leaf letter => rfl
          | branch contents => cases ignored
        rw [List.filterMap_cons_none shown, inductionHypothesis]
        simp only [List.takeWhile_cons, hidden, leaf, Bool.not_false, if_true, List.any_cons,
          Bool.false_or]
      · have sameVisible := outlining.seesThrough_visible.drawn element other shown
        have sameBranch := Element.isBranch_eq_of_letter? (outlining.drawn element other shown)
        rw [List.filterMap_cons_some shown]
        simp only [List.takeWhile_cons, sameVisible]
        by_cases visible : element.isVisible ignore = true
        · simp only [visible, Bool.not_true, Bool.false_eq_true, if_false, List.any_nil]
        · rw [Bool.not_eq_true] at visible
          simp only [visible, Bool.not_false, if_true, List.any_cons, sameBranch,
            inductionHypothesis]

theorem climb_outlined (outlining : Outlining ignore outline) (level : Level V)
    (enclosing : List (Level V)) :
    Place.climb ignore (level.outlined outline) (enclosing.map (·.outlined outline)) =
      (Place.climb ignore level enclosing).outlined outline := by
  induction enclosing generalizing level with
  | nil =>
      rw [List.map_nil, Place.climb, Place.climb,
        Level.seekLeft_outlined outlining.seesThrough_visible, outlining.letter?_seekLeft]
      cases (level.seekLeft (·.isVisible ignore)).letter? <;> rfl
  | cons outer around inductionHypothesis =>
      rw [List.map_cons, Place.climb, Place.climb,
        Level.seekLeft_outlined outlining.seesThrough_visible, outlining.letter?_seekLeft]
      rcases (level.seekLeft (·.isVisible ignore)).letter? with _ | letter
      · exact inductionHypothesis outer
      · rfl

theorem climbAcross_outlined (outlining : Outlining ignore outline) (crossed : Bool)
    (level : Level V) (enclosing : List (Level V)) :
    Place.climbAcross ignore crossed (level.outlined outline)
        (enclosing.map (·.outlined outline)) =
      (Place.climbAcross ignore crossed level enclosing).outlined outline := by
  induction enclosing generalizing level crossed with
  | nil =>
      rw [List.map_nil, Place.climbAcross, Place.climbAcross, outlining.passesBranch_outlined,
        Level.seekLeft_outlined outlining.seesThrough_visible, outlining.letter?_seekLeft]
      cases (level.seekLeft (·.isVisible ignore)).letter? <;> rfl
  | cons outer around inductionHypothesis =>
      rw [List.map_cons, Place.climbAcross, Place.climbAcross, outlining.passesBranch_outlined,
        Level.seekLeft_outlined outlining.seesThrough_visible, outlining.letter?_seekLeft]
      rcases (level.seekLeft (·.isVisible ignore)).letter? with _ | letter
      · exact inductionHypothesis true outer
      · rfl

theorem child_outlined (outlining : Outlining ignore outline) (inward : GoesInward outline)
    (place : Place V) :
    (place.outlined outline).child ignore = (place.child ignore).outlined outline := by
  rcases place with ⟨level, enclosing⟩
  simp only [Place.child, Place.outlined,
    Level.seekRight_outlined outlining.seesThrough_unignored]
  rcases level.seekRight (fun element => !element.isIgnored ignore) with ⟨left, focus, right⟩
  rcases focus with _ | letter | contents
  · rfl
  · -- A module bars the way, and if it is drawn at all it is drawn as itself.
    rcases shown : outline (.leaf letter) with _ | _ | _
    · simp only [Level.outlined, Lookup.outlined, Place.outlined, Option.bind_some, shown,
        Option.map_some]
    · simp only [Level.outlined, Lookup.outlined, Place.outlined, Option.bind_some, shown,
        Option.map_some]
    · cases outlining.drawn _ _ shown
  · have outer : Level.outlined outline ⟨left, some (.branch contents), right⟩ =
        ⟨left.filterMap outline, some (.branch (contents.filterMap outline)),
          right.filterMap outline⟩ := by
      rw [Level.outlined, Option.bind_some, inward]
    have inner : (Level.start (contents.filterMap outline)).seekRight (·.isVisible ignore) =
        ((Level.start contents).seekRight (·.isVisible ignore)).outlined outline :=
      Level.seekRight_outlined outlining.seesThrough_visible (.start contents)
    simp only [outer, inner, outlining.letter?_seekRight, Lookup.outlined, Option.map_some,
      Place.outlined, List.map_cons]

/-- A lookup from the outline of a place finds the same module and stops at the
outline of the place where the lookup stops. -/
theorem lookUp_outlined (outlining : Outlining ignore outline) (axis : Axis)
    (downward : axis = .child → GoesInward outline) (place : Place V) :
    (place.outlined outline).lookUp ignore axis = (place.lookUp ignore axis).outlined outline := by
  rcases place with ⟨level, enclosing⟩
  cases axis with
  | previousSiblingOrParent => exact outlining.climb_outlined level enclosing
  | previousSibling =>
      simp only [Place.lookUp, Place.previousSibling, Place.outlined, Lookup.outlined,
        Level.seekLeft_outlined outlining.seesThrough_visible, outlining.letter?_seekLeft,
        Option.map_some]
  | nextSibling =>
      simp only [Place.lookUp, Place.nextSibling, Place.outlined, Lookup.outlined,
        Level.seekRight_outlined outlining.seesThrough_visible, outlining.letter?_seekRight,
        Option.map_some]
  | child => exact outlining.child_outlined (downward rfl) _
  | parent => exact outlining.climbAcross_outlined false level enclosing

end Outlining

end LSystem
