import LSystem.Cursor.Basic
import LSystem.Proofs.Forest.Renaming

namespace LSystem

/-!
# Lookups under other names

A search knows a module only by whether it is ignored, so it goes the same way when the
forest and the ignored symbols are renamed together.  Main statement: a lookup from the
renamed place is the renamed lookup, along every axis, even if explicit brackets have
become ordinary modules or the other way round.  Steps of the walk are renamed as well.
-/

variable {V : Type}

/-! ## Renamed places -/

def Level.renamed (names : Renaming) (level : Level V) : Level V :=
  ⟨level.left.map (·.renamed names), level.focus.map (·.renamed names),
    level.right.map (·.renamed names)⟩

def Place.renamed (names : Renaming) (place : Place V) : Place V :=
  ⟨place.level.renamed names, place.enclosing.map (·.renamed names)⟩

def Lookup.renamed (names : Renaming) (lookup : Lookup V) : Lookup V :=
  ⟨lookup.found.map (·.renamed names), lookup.place.map (·.renamed names)⟩

def Cursor.renamed (names : Renaming) (cursor : Cursor V) : Cursor V :=
  ⟨cursor.position.renamed names, cursor.context.map (·.renamed names)⟩

section Searches

variable (names : Renaming) (ignore : List Symbol)

@[simp]
theorem Level.renamed_start (contents : Forest V) :
    (Level.start contents).renamed names = .start (contents.renamed names) := by
  rw [Forest.renamed_eq_map]
  rfl

@[simp]
theorem Element.isBranch_renamed (element : Element V) :
    (element.renamed names).isBranch = element.isBranch := by
  cases element with
  | leaf letter => simp [isBranch]
  | branch contents => simp [isBranch]

@[simp]
theorem Element.isIgnored_renamed (element : Element V) :
    (element.renamed names).isIgnored (ignore.map names.apply) = element.isIgnored ignore := by
  cases element with
  | leaf letter =>
      rw [renamed]
      exact names.contains_map ignore letter.symbol
  | branch contents => simp [isIgnored]

/-- A search accepts what another one accepts under the new names. -/
def Renaming.Aligns (accepts others : Element V → Bool) : Prop :=
  ∀ element, others (element.renamed names) = accepts element

theorem Renaming.aligns_visible :
    names.Aligns (V := V) (·.isVisible ignore) (·.isVisible (ignore.map names.apply)) := by
  intro element
  simp [Element.isVisible]

theorem Renaming.aligns_unignored :
    names.Aligns (V := V) (fun element => !element.isIgnored ignore)
      (fun element => !element.isIgnored (ignore.map names.apply)) := by
  intro element
  simp

/-! ## Searching a level -/

namespace Level

@[simp]
theorem letter?_renamed (level : Level V) :
    (level.renamed names).letter? = level.letter?.map (·.renamed names) := by
  rcases level with ⟨left, focus, right⟩
  rcases focus with _ | letter | contents
  · rfl
  · simp [renamed, letter?]
  · simp [renamed, letter?]

variable {accepts others : Element V → Bool}

/-- A search under new names passes and accepts the same elements. -/
theorem settle_renamed (alike : names.Aligns accepts others) (passed ahead : List (Element V)) :
    settle others (passed.map (·.renamed names)) (ahead.map (·.renamed names)) =
      (settle accepts passed ahead).renamed names := by
  induction ahead generalizing passed with
  | nil => rfl
  | cons element rest inductionHypothesis =>
      rw [List.map_cons, settle, settle, alike element]
      by_cases accepted : accepts element = true
      · rw [if_pos accepted, if_pos accepted]
        rfl
      · rw [if_neg accepted, if_neg accepted]
        exact inductionHypothesis (element :: passed)

theorem seekRight_renamed (alike : names.Aligns accepts others) (level : Level V) :
    (level.renamed names).seekRight others = (level.seekRight accepts).renamed names := by
  have passed : (level.focus.map (·.renamed names)).toList ++ level.left.map (·.renamed names) =
      (level.focus.toList ++ level.left).map (·.renamed names) := by
    rw [List.map_append, Option.toList_map]
  rw [seekRight, seekRight, ← settle_renamed names alike, ← passed]
  rfl

theorem seekLeft_renamed (alike : names.Aligns accepts others) (level : Level V) :
    (level.renamed names).seekLeft others = (level.seekLeft accepts).renamed names := by
  have flipped := seekRight_renamed names alike level.flip
  exact congrArg flip flipped

@[simp]
theorem passesBranch_renamed (level : Level V) :
    (level.renamed names).passesBranch (ignore.map names.apply) = level.passesBranch ignore := by
  rw [passesBranch, passesBranch, renamed, List.takeWhile_map, List.any_map]
  simp only [Function.comp_def, names.aligns_visible ignore _, Element.isBranch_renamed]

end Level

/-! ## Lookups -/

namespace Place

theorem climb_renamed (level : Level V) (enclosing : List (Level V)) :
    climb (ignore.map names.apply) (level.renamed names) (enclosing.map (·.renamed names)) =
      (climb ignore level enclosing).renamed names := by
  have visible := names.aligns_visible (V := V) ignore
  induction enclosing generalizing level with
  | nil =>
      rw [List.map_nil, climb, climb, Level.seekLeft_renamed names visible,
        Level.letter?_renamed]
      cases (level.seekLeft (·.isVisible ignore)).letter? <;> rfl
  | cons outer around inductionHypothesis =>
      rw [List.map_cons, climb, climb, Level.seekLeft_renamed names visible,
        Level.letter?_renamed]
      rcases (level.seekLeft (·.isVisible ignore)).letter? with _ | letter
      · exact inductionHypothesis outer
      · rfl

theorem climbAcross_renamed (crossed : Bool) (level : Level V) (enclosing : List (Level V)) :
    climbAcross (ignore.map names.apply) crossed (level.renamed names)
        (enclosing.map (·.renamed names)) =
      (climbAcross ignore crossed level enclosing).renamed names := by
  have visible := names.aligns_visible (V := V) ignore
  induction enclosing generalizing level crossed with
  | nil =>
      rw [List.map_nil, climbAcross, climbAcross, Level.passesBranch_renamed,
        Level.seekLeft_renamed names visible, Level.letter?_renamed]
      rcases (level.seekLeft (·.isVisible ignore)).letter? with _ | letter
      · rfl
      · simp only [Option.map_some, Lookup.renamed, apply_ite (Option.map _), Option.map_none]
        rfl
  | cons outer around inductionHypothesis =>
      rw [List.map_cons, climbAcross, climbAcross, Level.passesBranch_renamed,
        Level.seekLeft_renamed names visible, Level.letter?_renamed]
      rcases (level.seekLeft (·.isVisible ignore)).letter? with _ | letter
      · exact inductionHypothesis true outer
      · simp only [Option.map_some, Lookup.renamed, apply_ite (Option.map _), Option.map_none]
        rfl

@[simp]
theorem child_renamed (place : Place V) :
    (place.renamed names).child (ignore.map names.apply) = (place.child ignore).renamed names := by
  rcases place with ⟨level, enclosing⟩
  have unignored := names.aligns_unignored (V := V) ignore
  have visible := names.aligns_visible (V := V) ignore
  simp only [child, renamed, Level.seekRight_renamed names unignored]
  rcases level.seekRight (fun element => !element.isIgnored ignore) with ⟨left, focus, right⟩
  rcases focus with _ | letter | contents
  · rfl
  · simp [Level.renamed, Lookup.renamed, renamed]
  · have outer : Level.renamed names ⟨left, some (.branch contents), right⟩ =
        ⟨left.map (·.renamed names), some (.branch (Forest.renamed names contents)),
          right.map (·.renamed names)⟩ := by
      simp [Level.renamed]
    have inner := Level.seekRight_renamed names visible (.start contents)
    rw [Level.renamed_start] at inner
    simp [outer, inner, Lookup.renamed, renamed]

/-- A lookup finds the module that it has found before, under its new name. -/
theorem lookUp_renamed (axis : Axis) (place : Place V) :
    (place.renamed names).lookUp (ignore.map names.apply) axis =
      (place.lookUp ignore axis).renamed names := by
  have visible := names.aligns_visible (V := V) ignore
  cases axis with
  | previousSiblingOrParent => exact climb_renamed names ignore place.level place.enclosing
  | previousSibling =>
      simp [lookUp, previousSibling, renamed, Lookup.renamed,
        Level.seekLeft_renamed names visible]
  | nextSibling =>
      simp [lookUp, nextSibling, renamed, Lookup.renamed,
        Level.seekRight_renamed names visible]
  | child => exact child_renamed names ignore place
  | parent => exact climbAcross_renamed names ignore false place.level place.enclosing

/-! ## Walking -/

/-- The walk takes the same steps.  A module that has come to be called a bracket is
still a leaf, and branches are entered and left where they were. -/
@[simp]
theorem step?_renamed (place : Place V) :
    (place.renamed names).step? =
      place.step?.map fun taken => (taken.1.renamed names, taken.2.renamed names) := by
  rcases place with ⟨⟨left, focus, right⟩, enclosing⟩
  have passed : (focus.map (·.renamed names)).toList ++ left.map (·.renamed names) =
      (focus.toList ++ left).map (·.renamed names) := by
    rw [List.map_append, Option.toList_map]
  rcases right with _ | ⟨letter | contents, right⟩
  · cases enclosing with
    | nil => rfl
    | cons outer around => rfl
  · simp [renamed, Level.renamed, Visit.renamed, step?, passed]
  · simp [renamed, Level.renamed, Visit.renamed, step?, passed, ← Level.renamed_start]

end Place

namespace Cursor

@[simp]
theorem hasNext_renamed (cursor : Cursor V) :
    (cursor.renamed names).hasNext = cursor.hasNext := by
  simp [hasNext_eq_isSome_step?, renamed]

theorem next_renamed (cursor : Cursor V) :
    (cursor.renamed names).next =
      cursor.next.map fun taken => (taken.1.renamed names, taken.2.renamed names) := by
  rw [next, next, renamed, Place.step?_renamed]
  rcases cursor.position.step? with _ | ⟨visit, place⟩ <;> rfl

theorem lookUp_renamed (axis : Axis) (cursor : Cursor V) :
    (cursor.renamed names).lookUp (ignore.map names.apply) axis =
      ((cursor.lookUp ignore axis).1.map (·.renamed names),
        (cursor.lookUp ignore axis).2.renamed names) := by
  rcases cursor with ⟨position, context⟩
  rcases context with _ | place
  · rfl
  · simp [lookUp, renamed, Place.lookUp_renamed, Lookup.renamed]

theorem navigate_renamed (direction : Direction) (cursor : Cursor V) :
    (cursor.renamed names).navigate (ignore.map names.apply) direction =
      ((cursor.navigate ignore direction).1.map (·.renamed names),
        (cursor.navigate ignore direction).2.renamed names) := by
  rw [navigate, navigate, ← lookUp_renamed]
  split <;> rfl

end Cursor
end Searches
end LSystem
