import LSystem.Proofs.Cursor.Walk

namespace LSystem

/-!
# Confinement

A place carries a whole forest with it: the contents of its outermost level,
where each level around it is focused on the branch that the next inner one
spells out.  Steps and lookups move focuses and never touch elements.  So a
cursor that starts on a forest stays on that forest, and everything that a lookup
finds is a leaf of it.
-/

variable {V : Type}

/-! ## Leaves of a part -/

theorem Forest.leaves_subset_of_mem {forest : Forest V} {element : Element V}
    (member : element ∈ forest) {letter : Module V} (leaf : letter ∈ element.leaves) :
    letter ∈ Forest.leaves forest := by
  rcases List.append_of_mem member with ⟨before, rest, rfl⟩
  simp [leaf]

namespace Level

theorem focus_mem_contents {level : Level V} {element : Element V}
    (focused : level.focus = some element) : element ∈ level.contents := by
  rw [contents, focused]
  simp

theorem letter?_mem_leaves {level : Level V} {letter : Module V}
    (found : level.letter? = some letter) : letter ∈ Forest.leaves level.contents := by
  rw [letter?] at found
  split at found
  · next focused =>
      cases found
      exact Forest.leaves_subset_of_mem (focus_mem_contents focused) (List.mem_singleton.mpr rfl)
  · cases found

end Level

/-! ## Places in a forest -/

/-- A place lies in a forest if its outermost level has the elements of the
forest, and every other level those of the branch in focus around it. -/
inductive Place.LiesIn (forest : Forest V) : Place V → Prop where
  | outermost {level : Level V} (whole : level.contents = forest) :
      LiesIn forest ⟨level, []⟩
  | inner {level outer : Level V} {around : List (Level V)}
      (branch : outer.focus = some (.branch level.contents))
      (outside : LiesIn forest ⟨outer, around⟩) :
      LiesIn forest ⟨level, outer :: around⟩

namespace Place

variable {forest : Forest V}

theorem liesIn_root (forest : Forest V) : (root forest).LiesIn forest := .outermost rfl

/-- Only the elements of the innermost level matter, not where its focus is. -/
theorem LiesIn.refocus {level moved : Level V} {enclosing : List (Level V)}
    (inside : LiesIn forest ⟨level, enclosing⟩) (same : moved.contents = level.contents) :
    LiesIn forest ⟨moved, enclosing⟩ := by
  cases inside with
  | outermost whole => exact .outermost (same.trans whole)
  | inner branch outside => exact .inner (same ▸ branch) outside

theorem LiesIn.outside {level outer : Level V} {around : List (Level V)}
    (inside : LiesIn forest ⟨level, outer :: around⟩) : LiesIn forest ⟨outer, around⟩ := by
  cases inside with
  | inner _ outside => exact outside

/-- The leaves of the innermost level are leaves of the forest. -/
theorem LiesIn.leaves {place : Place V} (inside : place.LiesIn forest) {letter : Module V}
    (leaf : letter ∈ Forest.leaves place.level.contents) : letter ∈ Forest.leaves forest := by
  induction inside with
  | outermost whole => exact whole ▸ leaf
  | inner branch _ inductionHypothesis =>
      exact inductionHypothesis
        (Forest.leaves_subset_of_mem (Level.focus_mem_contents branch) leaf)

theorem Step.liesIn {place next : Place V} {visit : Visit V} (step : Step place visit next)
    (inside : place.LiesIn forest) : next.LiesIn forest := by
  cases step with
  | leaf left focus letter right enclosing =>
      exact inside.refocus (by cases focus <;> simp [Level.contents])
  | enter left focus contents right enclosing =>
      exact .inner rfl (inside.refocus (by cases focus <;> simp [Level.contents]))
  | exit => exact inside.outside

theorem liesIn_of_after {steps : Nat} {place : Place V}
    (reached : after forest steps = some place) : place.LiesIn forest :=
  after_induction (motive := fun _ place => place.LiesIn forest) (liesIn_root forest)
    (fun _ _ _ _ step inside => step.liesIn inside) reached

end Place

/-! ## Lookups -/

/-- What a lookup answers with is a leaf of the forest, and where it stops is a
place in it. -/
structure Lookup.StaysIn (forest : Forest V) (lookup : Lookup V) : Prop where
  found : ∀ letter, lookup.found = some letter → letter ∈ Forest.leaves forest
  place : ∀ place, lookup.place = some place → place.LiesIn forest

theorem Lookup.StaysIn.unanswered {forest : Forest V} {stopped : Option (Place V)}
    (inside : ∀ place, stopped = some place → place.LiesIn forest) :
    Lookup.StaysIn forest ⟨none, stopped⟩ where
  found _ found := nomatch found
  place := inside

namespace Place

variable {forest : Forest V}

/-- Moving the focus of the innermost level and answering with what it is on. -/
theorem LiesIn.staysIn_refocus {level moved : Level V} {enclosing : List (Level V)}
    (inside : LiesIn forest ⟨level, enclosing⟩) (same : moved.contents = level.contents) :
    Lookup.StaysIn forest ⟨moved.letter?, some ⟨moved, enclosing⟩⟩ where
  found _ found := (inside.refocus same).leaves (Level.letter?_mem_leaves found)
  place _ stopped := Option.some.inj stopped ▸ inside.refocus same

theorem LiesIn.staysIn_climb (ignore : List Symbol) {level : Level V}
    {enclosing : List (Level V)} (inside : LiesIn forest ⟨level, enclosing⟩) :
    (climb ignore level enclosing).StaysIn forest := by
  induction enclosing generalizing level with
  | nil =>
      have moved := inside.staysIn_refocus (level.contents_seekLeft (·.isVisible ignore))
      rw [climb]
      split
      · next found => exact found ▸ moved
      · exact .unanswered fun _ stopped => nomatch stopped
  | cons outer around inductionHypothesis =>
      have moved := inside.staysIn_refocus (level.contents_seekLeft (·.isVisible ignore))
      rw [climb]
      split
      · next found => exact found ▸ moved
      · exact inductionHypothesis inside.outside

theorem LiesIn.staysIn_climbAcross (ignore : List Symbol) (crossed : Bool) {level : Level V}
    {enclosing : List (Level V)} (inside : LiesIn forest ⟨level, enclosing⟩) :
    (climbAcross ignore crossed level enclosing).StaysIn forest := by
  have reached {level : Level V} {enclosing : List (Level V)} (crossed : Bool)
      (inside : LiesIn forest ⟨level, enclosing⟩) {letter : Module V}
      (found : (level.seekLeft (·.isVisible ignore)).letter? = some letter) :
      Lookup.StaysIn forest
        ⟨if crossed || level.passesBranch ignore then some letter else none,
          some ⟨level.seekLeft (·.isVisible ignore), enclosing⟩⟩ := by
    have moved := inside.staysIn_refocus (level.contents_seekLeft (·.isVisible ignore))
    refine ⟨fun answer answered => moved.found answer ?_, moved.place⟩
    split at answered
    · exact found.trans answered
    · cases answered
  induction enclosing generalizing level crossed with
  | nil =>
      rw [climbAcross]
      split
      · next found => exact reached crossed inside found
      · exact .unanswered fun _ stopped => nomatch stopped
  | cons outer around inductionHypothesis =>
      rw [climbAcross]
      split
      · next found => exact reached crossed inside found
      · exact inductionHypothesis true inside.outside

theorem LiesIn.staysIn_child (ignore : List Symbol) {place : Place V}
    (inside : place.LiesIn forest) : (place.child ignore).StaysIn forest := by
  rcases place with ⟨level, enclosing⟩
  have moved := inside.refocus (level.contents_seekRight fun element => !element.isIgnored ignore)
  rw [child]
  split
  · next contents focused =>
      have below : LiesIn forest ⟨.start contents, _ :: enclosing⟩ := .inner focused moved
      exact below.staysIn_refocus (Level.contents_seekRight _ _)
  · exact .unanswered fun _ stopped => Option.some.inj stopped ▸ moved

/-- Along every axis a lookup stays in the forest. -/
theorem LiesIn.staysIn_lookUp (ignore : List Symbol) (axis : Axis) {place : Place V}
    (inside : place.LiesIn forest) : (place.lookUp ignore axis).StaysIn forest := by
  cases axis with
  | previousSiblingOrParent => exact inside.staysIn_climb ignore
  | previousSibling => exact inside.staysIn_refocus (place.level.contents_seekLeft _)
  | nextSibling => exact inside.staysIn_refocus (place.level.contents_seekRight _)
  | child => exact inside.staysIn_child ignore
  | parent => exact inside.staysIn_climbAcross ignore false

end Place

/-! ## Cursors -/

/-- A cursor is on a forest if its walk is, and the lookups since the last step
are as well, unless they have climbed out of it. -/
structure Cursor.LiesIn (forest : Forest V) (cursor : Cursor V) : Prop where
  position : cursor.position.LiesIn forest
  context : ∀ place, cursor.context = some place → place.LiesIn forest

namespace Cursor.LiesIn

variable {forest : Forest V} {cursor : Cursor V}

/-- With the context at the position of the walk. -/
theorem of_place {place : Place V} (inside : place.LiesIn forest) :
    Cursor.LiesIn forest ⟨place, some place⟩ :=
  ⟨inside, fun _ same => Option.some.inj same ▸ inside⟩

theorem resetContext (inside : cursor.LiesIn forest) : cursor.resetContext.LiesIn forest :=
  of_place inside.position

theorem lookUp (ignore : List Symbol) (axis : Axis) (inside : cursor.LiesIn forest) :
    (cursor.lookUp ignore axis).2.LiesIn forest ∧
      ∀ letter, (cursor.lookUp ignore axis).1 = some letter → letter ∈ Forest.leaves forest := by
  rw [Cursor.lookUp]
  split
  · exact ⟨inside, fun _ found => nomatch found⟩
  · next place atPlace =>
      have stays := (inside.context place atPlace).staysIn_lookUp ignore axis
      exact ⟨⟨inside.position, stays.place⟩, stays.found⟩

theorem navigate (ignore : List Symbol) (direction : Direction) (inside : cursor.LiesIn forest) :
    (cursor.navigate ignore direction).2.LiesIn forest ∧
      ∀ letter, (cursor.navigate ignore direction).1 = some letter →
        letter ∈ Forest.leaves forest := by
  rw [Cursor.navigate]
  split
  · exact inside.resetContext.lookUp ignore direction.axis
  · exact inside.lookUp ignore direction.axis

end Cursor.LiesIn

/-- Where a cursor is after lookups in some directions, one after the other. -/
def Cursor.wander (ignore : List Symbol) (directions : List Direction) (cursor : Cursor V) :
    Cursor V :=
  directions.foldl (fun cursor direction => (cursor.navigate ignore direction).2) cursor

theorem Cursor.LiesIn.wander {forest : Forest V} (ignore : List Symbol)
    (directions : List Direction) {cursor : Cursor V} (inside : cursor.LiesIn forest) :
    (cursor.wander ignore directions).LiesIn forest := by
  induction directions generalizing cursor with
  | nil => exact inside
  | cons direction rest inductionHypothesis =>
      exact inductionHypothesis (inside.navigate ignore direction).1

end LSystem
