import LSystem.Proofs.Cursor.Reading

namespace LSystem

/-!
# Bookkeeping

The numbers of a bookmark are always in order, and they say what a cursor holds.
Main statement: whatever is asked of a bookmark, every call has a result, the
numbers stay in order, and the answers are those of the cursor that the bookmark
stands for.
-/

variable {V : Type}

namespace Bookmark

/-! ## Views in order -/

namespace ViewsFit

variable {forest : Forest V} {views : List View} {level : Option Nat}

/-- The levels around a level are in order as well. -/
theorem lower {here : Nat} (fits : ViewsFit forest views (some here)) {further : Nat}
    (around : further ≤ here) : ViewsFit forest views (some further) where
  level_lt := by
    rintro _ ⟨⟩
    exact Nat.lt_of_le_of_lt around (fits.level_lt here rfl)
  within := fits.within
  nested := by
    rintro _ ⟨⟩
    have prefixOf := (fits.nested here rfl).take (further + 1)
    rwa [List.take_take, Nat.min_eq_left (Nat.succ_le_succ around)] at prefixOf

theorem leave (fits : ViewsFit forest views level) : ViewsFit forest views none where
  level_lt := by rintro _ ⟨⟩
  within := fits.within
  nested := by rintro _ ⟨⟩

variable {around deeper : List View} {view : View}

/-- Views are in order on a level if they are inside each other up to there. -/
theorem onLevel_iff :
    ViewsFit forest (around.reverse ++ view :: deeper) (some around.length) ↔
      (∀ other ∈ around.reverse ++ view :: deeper, other.Within forest) ∧
        (view :: around).IsChain fun inner outer => outer.LeadsTo inner := by
  constructor
  · intro fits
    have chain := fits.nested _ rfl
    rw [take_onLevel, List.isChain_reverse] at chain
    exact ⟨fits.within, chain⟩
  · rintro ⟨within, chain⟩
    refine ⟨?_, within, ?_⟩
    · rintro _ ⟨⟩
      rw [List.length_append, List.length_reverse, List.length_cons]
      omega
    · rintro _ ⟨⟩
      rw [take_onLevel, List.isChain_reverse]
      exact chain

theorem within_onLevel
    (fits : ViewsFit forest (around.reverse ++ view :: deeper) (some around.length)) :
    view.Within forest :=
  fits.within view (List.mem_append_right _ List.mem_cons_self)

/-- The focus of the innermost view is free to move inside its level. -/
theorem refocus {path : List Nat} {focus moved : Int} {contents : Forest V}
    (fits : ViewsFit forest (around.reverse ++ ⟨path, focus⟩ :: deeper) (some around.length))
    (reached : forest.contentsAt? path = some contents) (low : -1 ≤ moved)
    (high : moved ≤ contents.length) :
    ViewsFit forest (around.reverse ++ ⟨path, moved⟩ :: deeper) (some around.length) := by
  rw [onLevel_iff] at fits ⊢
  constructor
  · intro other member
    rcases List.mem_append.mp member with outside | inside
    · exact fits.1 other (List.mem_append_left _ outside)
    · rcases List.mem_cons.mp inside with rfl | left
      · exact ⟨contents, reached, low, high⟩
      · exact fits.1 other (List.mem_append_right _ (List.mem_cons_of_mem _ left))
  · cases around with
    | nil => exact .singleton _
    | cons outer rest =>
        rw [List.isChain_cons_cons] at fits ⊢
        exact fits.2

/-- A branch that the innermost view is focused on can be gone into. -/
theorem descend {path : List Nat} {number : Nat} {contents inside : Forest V}
    (fits : ViewsFit forest (around.reverse ++ ⟨path, number⟩ :: deeper) (some around.length))
    (reached : forest.contentsAt? path = some contents)
    (branch : contents[number]? = some (.branch inside)) :
    ViewsFit forest ((⟨path, number⟩ :: around).reverse ++ [⟨path ++ [number], -1⟩])
      (some (around.length + 1)) := by
  have below : forest.contentsAt? (path ++ [number]) = some inside :=
    contentsAt?_concat reached branch
  rw [onLevel_iff] at fits
  refine onLevel_iff.mpr ⟨?_, ?_⟩
  · intro other member
    rw [List.reverse_cons, List.append_assoc] at member
    rcases List.mem_append.mp member with outside | innermost
    · exact fits.1 other (List.mem_append_left _ outside)
    · rcases List.mem_cons.mp innermost with rfl | new
      · exact fits.1 _ (List.mem_append_right _ List.mem_cons_self)
      · cases List.mem_singleton.mp new
        exact ⟨inside, below, Int.le_refl _, by dsimp only; omega⟩
  · exact .cons_cons ⟨Int.natCast_nonneg number, by rw [Int.toNat_natCast]⟩ fits.2

end ViewsFit

/-! ## Lookups -/

/-- A search of a bookmark has a result: it finds what a lookup finds and stops
where the lookup stops, with its views in order.  It leaves the walk alone. -/
def Follows (forest : Forest V) (walk : List Stop) (stale : Bool)
    (search : Option (Option (Module V) × Bookmark)) (lookup : Lookup V) : Prop :=
  ∃ views level, search = some (lookup.found, ⟨walk, views, level, stale⟩) ∧
    ViewsFit forest views level ∧
    level.map (fun here => placeOf forest (views.take (here + 1)).reverse) = lookup.place

section Lookups

variable {forest : Forest V} {path : List Nat} {focus : Int}
variable (ignore : List Symbol) (walk : List Stop) (stale : Bool) {around deeper : List View}

theorem place_onLevel (view : View) :
    placeOf forest ((around.reverse ++ view :: deeper).take (around.length + 1)).reverse =
      ⟨view.level forest, around.map (·.level forest)⟩ := by
  simp [placeOf]

/-- A search that ends on the level where it has begun. -/
theorem follows_onLevel {search : Option (Option (Module V) × Bookmark)}
    {found : Option (Module V)} {view : View}
    (result : search = some (found, onLevel walk stale around view deeper))
    (fits : ViewsFit forest (around.reverse ++ view :: deeper) (some around.length)) :
    Follows forest walk stale search
      ⟨found, some ⟨view.level forest, around.map (·.level forest)⟩⟩ :=
  ⟨_, _, result, fits, congrArg some (place_onLevel view)⟩

/-- A search of one level, whichever way it goes, finds what comes into focus. -/
theorem follows_sibling {move : Nat → Move V} {moved : Int}
    (sought : seek (move around.length) (·.isVisible ignore)
        (onLevel walk stale around ⟨path, focus⟩ deeper) =
      some ((View.level forest ⟨path, moved⟩).focus,
        onLevel walk stale around ⟨path, moved⟩ deeper))
    (moves : ViewsFit forest (around.reverse ++ ⟨path, moved⟩ :: deeper) (some around.length)) :
    Follows forest walk stale
      (sibling ignore move (onLevel walk stale around ⟨path, focus⟩ deeper))
      ⟨(View.level forest ⟨path, moved⟩).letter?,
        some ⟨View.level forest ⟨path, moved⟩, around.map (·.level forest)⟩⟩ := by
  refine follows_onLevel walk stale ?_ moves
  rw [sibling]
  simp only [onLevel] at sought ⊢
  simp only [sought, Option.bind_eq_bind, Option.bind_some, Level.letter?_eq]

variable (fits : ViewsFit forest (around.reverse ++ ⟨path, focus⟩ :: deeper) (some around.length))
include fits

theorem follows_previousSibling :
    Follows forest walk stale
      (sibling ignore (leftward forest) (onLevel walk stale around ⟨path, focus⟩ deeper))
      (Place.previousSibling ignore
        ⟨View.level forest ⟨path, focus⟩, around.map (·.level forest)⟩) := by
  rcases fits.within_onLevel with ⟨contents, reached, low, high⟩
  rcases seek_leftward walk stale around deeper reached (·.isVisible ignore) low high with
    ⟨moved, lowMoved, highMoved, same, sought⟩
  rw [Place.previousSibling]
  dsimp only
  rw [same]
  exact follows_sibling ignore walk stale sought (fits.refocus reached lowMoved highMoved)

theorem follows_nextSibling :
    Follows forest walk stale
      (sibling ignore (rightward forest) (onLevel walk stale around ⟨path, focus⟩ deeper))
      (Place.nextSibling ignore
        ⟨View.level forest ⟨path, focus⟩, around.map (·.level forest)⟩) := by
  rcases fits.within_onLevel with ⟨contents, reached, low, high⟩
  rcases seek_rightward walk stale around deeper reached (·.isVisible ignore) low high with
    ⟨moved, lowMoved, highMoved, same, sought⟩
  rw [Place.nextSibling]
  dsimp only
  rw [same]
  exact follows_sibling ignore walk stale sought (fits.refocus reached lowMoved highMoved)

/-- A climb searches its level.  It stops there or goes on with the level around,
and either way it leaves the views in order. -/
theorem climb_onLevel :
    ∃ moved : Int,
      ViewsFit forest (around.reverse ++ ⟨path, moved⟩ :: deeper) (some around.length) ∧
      (View.level forest ⟨path, focus⟩).seekLeft (·.isVisible ignore) =
        View.level forest ⟨path, moved⟩ ∧
      (∀ letter, (View.level forest ⟨path, moved⟩).letter? = some letter →
        climb forest ignore (onLevel walk stale around ⟨path, focus⟩ deeper) =
          some (some letter, onLevel walk stale around ⟨path, moved⟩ deeper)) ∧
      ((View.level forest ⟨path, moved⟩).letter? = none →
        climb forest ignore (onLevel walk stale around ⟨path, focus⟩ deeper) =
          climb forest ignore
            ⟨walk, around.reverse ++ ⟨path, moved⟩ :: deeper, outward around.length, stale⟩) := by
  rcases fits.within_onLevel with ⟨contents, reached, low, high⟩
  rcases seek_leftward walk stale around deeper reached (·.isVisible ignore) low high with
    ⟨moved, lowMoved, highMoved, same, sought⟩
  simp only [onLevel] at sought
  refine ⟨moved, fits.refocus reached lowMoved highMoved, same, ?_, ?_⟩
  · intro letter found
    rw [Level.letter?_eq] at found
    rw [climb_eq]
    simp only [onLevel, sought, Option.bind_eq_bind, Option.bind_some, found]
  · intro missing
    rw [Level.letter?_eq] at missing
    rw [climb_eq]
    simp only [onLevel, sought, Option.bind_eq_bind, Option.bind_some, missing]

theorem follows_climb :
    Follows forest walk stale
      (climb forest ignore (onLevel walk stale around ⟨path, focus⟩ deeper))
      (Place.climb ignore (View.level forest ⟨path, focus⟩) (around.map (·.level forest))) := by
  induction around generalizing path focus deeper with
  | nil =>
      rcases climb_onLevel ignore walk stale fits with ⟨moved, moves, same, stops, goesOn⟩
      rcases found : (View.level forest ⟨path, moved⟩).letter? with _ | letter
      · rw [goesOn found, Place.climb.eq_def, same]
        simp only [found]
        refine ⟨_, none, ?_, moves.leave, rfl⟩
        rw [climb_eq]
        rfl
      · rw [stops letter found, Place.climb.eq_def, same]
        simp only [found]
        exact follows_onLevel walk stale rfl moves
  | cons outer rest inductionHypothesis =>
      rcases climb_onLevel ignore walk stale fits with ⟨moved, moves, same, stops, goesOn⟩
      rcases found : (View.level forest ⟨path, moved⟩).letter? with _ | letter
      · rw [goesOn found, Place.climb.eq_def, same]
        simp only [found]
        have outside := moves.lower (Nat.le_succ rest.length)
        rw [List.reverse_cons, List.append_assoc] at outside ⊢
        exact inductionHypothesis outside
      · rw [stops letter found, Place.climb.eq_def, same]
        simp only [found]
        exact follows_onLevel walk stale rfl moves

/-- The same for a climb that keeps note of the borders it has crossed. -/
theorem climbAcross_onLevel (crossed : Bool) :
    ∃ moved : Int,
      ViewsFit forest (around.reverse ++ ⟨path, moved⟩ :: deeper) (some around.length) ∧
      (View.level forest ⟨path, focus⟩).seekLeft (·.isVisible ignore) =
        View.level forest ⟨path, moved⟩ ∧
      (∀ letter, (View.level forest ⟨path, moved⟩).letter? = some letter →
        climbAcross forest ignore crossed (onLevel walk stale around ⟨path, focus⟩ deeper) =
          some (if crossed || (View.level forest ⟨path, focus⟩).passesBranch ignore
            then some letter else none, onLevel walk stale around ⟨path, moved⟩ deeper)) ∧
      ((View.level forest ⟨path, moved⟩).letter? = none →
        climbAcross forest ignore crossed (onLevel walk stale around ⟨path, focus⟩ deeper) =
          climbAcross forest ignore true
            ⟨walk, around.reverse ++ ⟨path, moved⟩ :: deeper, outward around.length, stale⟩) := by
  rcases fits.within_onLevel with ⟨contents, reached, low, high⟩
  rcases seekAcross_leftward walk stale around deeper reached ignore crossed low high with
    ⟨moved, lowMoved, highMoved, same, sought⟩
  simp only [onLevel] at sought
  refine ⟨moved, fits.refocus reached lowMoved highMoved, same, ?_, ?_⟩
  · intro letter found
    rw [climbAcross_eq]
    simp only [onLevel, sought, Option.bind_eq_bind, Option.bind_some, found]
  · intro missing
    rw [climbAcross_eq]
    simp only [onLevel, sought, Option.bind_eq_bind, Option.bind_some, missing]

theorem follows_climbAcross (crossed : Bool) :
    Follows forest walk stale
      (climbAcross forest ignore crossed (onLevel walk stale around ⟨path, focus⟩ deeper))
      (Place.climbAcross ignore crossed (View.level forest ⟨path, focus⟩)
        (around.map (·.level forest))) := by
  induction around generalizing path focus deeper crossed with
  | nil =>
      rcases climbAcross_onLevel ignore walk stale fits crossed with
        ⟨moved, moves, same, stops, goesOn⟩
      rcases found : (View.level forest ⟨path, moved⟩).letter? with _ | letter
      · rw [goesOn found, Place.climbAcross.eq_def, same]
        simp only [found]
        refine ⟨_, none, ?_, moves.leave, rfl⟩
        rw [climbAcross_eq]
        rfl
      · rw [stops letter found, Place.climbAcross.eq_def, same]
        simp only [found]
        exact follows_onLevel walk stale rfl moves
  | cons outer rest inductionHypothesis =>
      rcases climbAcross_onLevel ignore walk stale fits crossed with
        ⟨moved, moves, same, stops, goesOn⟩
      rcases found : (View.level forest ⟨path, moved⟩).letter? with _ | letter
      · rw [goesOn found, Place.climbAcross.eq_def, same]
        simp only [found]
        have outside := moves.lower (Nat.le_succ rest.length)
        rw [List.reverse_cons, List.append_assoc] at outside ⊢
        exact inductionHypothesis outside true
      · rw [stops letter found, Place.climbAcross.eq_def, same]
        simp only [found]
        exact follows_onLevel walk stale rfl moves

/-- A lookup of a child goes into the branch it finds, and searches that. -/
theorem follows_child :
    Follows forest walk stale
      (child forest ignore (onLevel walk stale around ⟨path, focus⟩ deeper))
      (Place.child ignore
        ⟨View.level forest ⟨path, focus⟩, around.map (·.level forest)⟩) := by
  rcases fits.within_onLevel with ⟨contents, reached, low, high⟩
  rcases seek_rightward walk stale around deeper reached
      (fun element => !element.isIgnored ignore) low high with
    ⟨moved, lowMoved, highMoved, same, sought⟩
  have moves := fits.refocus reached lowMoved highMoved
  rw [Place.child, child]
  dsimp only
  rw [same]
  simp only [onLevel] at sought ⊢
  simp only [sought, Option.bind_eq_bind, Option.bind_some]
  rcases focused : (View.level forest ⟨path, moved⟩).focus with _ | letter | inside
  · exact follows_onLevel walk stale rfl moves
  · exact follows_onLevel walk stale rfl moves
  · rcases exists_number reached focused with ⟨number, rfl, branch⟩
    have further := follows_nextSibling ignore walk stale (moves.descend reached branch)
    rw [View.level_eq (contentsAt?_concat reached branch)] at further
    have below : (onLevel walk stale around ⟨path, number⟩ deeper).descend around.length = _ :=
      descend_onLevel walk stale around deeper number
    simp only [onLevel] at below
    simp only [below, Option.bind_some]
    exact further

/-- Along every axis a search has a result, and it is that of a lookup. -/
theorem follows_search (axis : Axis) :
    Follows forest walk stale
      (search forest ignore axis (onLevel walk stale around ⟨path, focus⟩ deeper))
      (Place.lookUp ignore axis
        ⟨View.level forest ⟨path, focus⟩, around.map (·.level forest)⟩) := by
  cases axis with
  | previousSiblingOrParent => exact follows_climb ignore walk stale fits
  | previousSibling => exact follows_previousSibling ignore walk stale fits
  | nextSibling => exact follows_nextSibling ignore walk stale fits
  | child => exact follows_child ignore walk stale fits
  | parent => exact follows_climbAcross ignore walk stale fits false

end Lookups

/-- Without a level to search nothing is found. -/
theorem search_of_level_eq_none (forest : Forest V) (ignore : List Symbol) (axis : Axis)
    {mark : Bookmark} (outside : mark.level = none) :
    mark.search forest ignore axis = some (none, mark) := by
  cases axis with
  | previousSiblingOrParent => simp only [search, climb_eq, outside]
  | previousSibling => simp only [search, sibling, outside]
  | nextSibling => simp only [search, sibling, outside]
  | child => simp only [search, child, outside]
  | parent => simp only [search, climbAcross_eq, outside]

/-! ## The walk -/

namespace WalkFits

variable {forest contents inside : Forest V} {around : List Stop} {path : List Nat} {next : Nat}

theorem exists_stop {walk : List Stop} (fits : WalkFits forest walk) :
    ∃ stop around, walk = stop :: around := by
  cases walk with
  | nil => cases fits.outermost
  | cons stop around => exact ⟨stop, around, rfl⟩

/-- The number of the next element plays no part in how a stop is reached. -/
theorem pass (fits : WalkFits forest (⟨path, next⟩ :: around))
    (reached : forest.contentsAt? path = some contents) (more : next < contents.length) :
    WalkFits forest (⟨path, next + 1⟩ :: around) where
  outermost := by
    cases around with
    | nil => exact fits.outermost
    | cons outer rest => exact fits.outermost
  nested := by
    cases around with
    | nil => exact .singleton _
    | cons outer rest => exact List.isChain_cons_cons.mpr (List.isChain_cons_cons.mp fits.nested)
  within := by
    intro stop member
    rcases List.mem_cons.mp member with rfl | outside
    · exact ⟨contents, reached, more⟩
    · exact fits.within stop (List.mem_cons_of_mem _ outside)

theorem enter (fits : WalkFits forest (⟨path, next + 1⟩ :: around))
    (reached : forest.contentsAt? path = some contents)
    (branch : contents[next]? = some (.branch inside)) :
    WalkFits forest (⟨path ++ [next], 0⟩ :: ⟨path, next + 1⟩ :: around) where
  outermost := fits.outermost
  nested := .cons_cons ⟨Nat.succ_pos next, rfl⟩ fits.nested
  within := by
    intro stop member
    rcases List.mem_cons.mp member with rfl | outside
    · exact ⟨inside, contentsAt?_concat reached branch, Nat.zero_le _⟩
    · exact fits.within stop outside

theorem exit {stop outer : Stop} (fits : WalkFits forest (stop :: outer :: around)) :
    WalkFits forest (outer :: around) where
  outermost := fits.outermost
  nested := (List.isChain_cons_cons.mp fits.nested).2
  within stop outside := fits.within stop (List.mem_cons_of_mem _ outside)

/-- The views from the stops of a walk are in order. -/
theorem viewsFit {stop : Stop} (fits : WalkFits forest (stop :: around)) :
    ViewsFit forest ((around.map Stop.view).reverse ++ [stop.view])
      (some (around.map Stop.view).length) := by
  refine ViewsFit.onLevel_iff.mpr ⟨?_, ?_⟩
  · intro view member
    have fromStop : view ∈ (stop :: around).map Stop.view := by
      rcases List.mem_append.mp member with outside | innermost
      · exact List.mem_cons_of_mem _ (List.mem_reverse.mp outside)
      · exact List.mem_cons.mpr (.inl (List.mem_singleton.mp innermost))
    rcases List.mem_map.mp fromStop with ⟨seen, isStop, rfl⟩
    rcases fits.within seen isStop with ⟨contents, reached, high⟩
    exact ⟨contents, reached, by dsimp only [Stop.view]; omega, by dsimp only [Stop.view]; omega⟩
  · have chain : ((stop :: around).map Stop.view).IsChain
        fun inner outer => outer.LeadsTo inner := by
      rw [List.isChain_map]
      refine fits.nested.imp ?_
      rintro inner outer ⟨passed, leads⟩
      refine ⟨by dsimp only [Stop.view]; omega, ?_⟩
      have number : ((outer.next : Int) - 1).toNat = outer.next - 1 := by omega
      dsimp only [Stop.view]
      rw [number, leads]
    exact chain

end WalkFits

/-! ## Steps -/

section Steps

variable {forest contents : Forest V} {path : List Nat} {next : Nat} {around : List Stop}

theorem level_view (reached : forest.contentsAt? path = some contents) :
    (Stop.view ⟨path, next⟩).level forest = .upTo contents next := by
  have count : ((next : Int) - 1 + 1).toNat = next := by omega
  rw [Stop.view, View.level_eq reached, count]

/-- A walk stands on the level of its innermost stop. -/
theorem placeOf_walk (reached : forest.contentsAt? path = some contents) :
    placeOf forest ((⟨path, next⟩ :: around).map Stop.view) =
      ⟨.upTo contents next, (around.map Stop.view).map (·.level forest)⟩ := by
  rw [List.map_cons, placeOf, level_view reached]

theorem step_leaf (reached : forest.contentsAt? path = some contents) {letter : Module V}
    (here : contents[next]? = some (.leaf letter)) :
    Place.Step (placeOf forest ((⟨path, next⟩ :: around).map Stop.view)) (.leaf letter)
      (placeOf forest ((⟨path, next + 1⟩ :: around).map Stop.view)) := by
  rcases Level.upTo_succ here with ⟨left, focus, right, before, after⟩
  rw [placeOf_walk reached, placeOf_walk reached, before, after]
  exact .leaf left focus letter right _

theorem step_enter (reached : forest.contentsAt? path = some contents) {inside : Forest V}
    (here : contents[next]? = some (.branch inside)) :
    Place.Step (placeOf forest ((⟨path, next⟩ :: around).map Stop.view)) .enter
      (placeOf forest ((⟨path ++ [next], 0⟩ :: ⟨path, next + 1⟩ :: around).map Stop.view)) := by
  rcases Level.upTo_succ here with ⟨left, focus, right, before, after⟩
  rw [placeOf_walk reached, placeOf_walk (contentsAt?_concat reached here), List.map_cons,
    List.map_cons, level_view reached, before, after]
  exact .enter left focus inside right _

theorem step_exit (reached : forest.contentsAt? path = some contents)
    (last : contents[next]? = none) (outer : Stop) :
    Place.Step (placeOf forest ((⟨path, next⟩ :: outer :: around).map Stop.view)) .exit
      (placeOf forest ((outer :: around).map Stop.view)) := by
  have finished : (Level.upTo contents next).right = [] := by
    simpa using last
  rw [placeOf_walk reached]
  rcases level : Level.upTo contents next with ⟨left, focus, right⟩
  rw [level] at finished
  cases finished
  exact .exit left focus _ _

end Steps

/-! ## Steps of a bookmark -/

/-- A step has led to other stops, so the views are stale. -/
def steppedTo (walk : List Stop) (mark : Bookmark) : Bookmark := { mark with walk, stale := true }

@[simp]
theorem walk_steppedTo (walk : List Stop) (mark : Bookmark) : (mark.steppedTo walk).walk = walk :=
  rfl

section Steps

variable {forest contents : Forest V} {mark : Bookmark} {path : List Nat} {next : Nat}
  {around : List Stop}

/-- A walk goes on in front of an element. -/
theorem hasNext_of_lt (stands : mark.walk = ⟨path, next⟩ :: around)
    (reached : forest.contentsAt? path = some contents) (more : next < contents.length) :
    mark.hasNext forest = some true := by
  rw [hasNext, stands]
  cases around with
  | nil => simp only [reached, Option.map_some, more, decide_true]
  | cons outer rest => rfl

theorem next_leaf (stands : mark.walk = ⟨path, next⟩ :: around)
    (reached : forest.contentsAt? path = some contents) {letter : Module V}
    (here : contents[next]? = some (.leaf letter)) :
    mark.next forest =
      some (.ok (.leaf letter, mark.steppedTo (⟨path, next + 1⟩ :: around))) := by
  have goesOn := hasNext_of_lt stands reached (List.getElem?_eq_some_iff.mp here).1
  rw [Bookmark.next, goesOn, stands]
  simp only [Option.bind_eq_bind, Option.bind_some, if_true, reached, here, steppedTo]

theorem next_enter (stands : mark.walk = ⟨path, next⟩ :: around)
    (reached : forest.contentsAt? path = some contents) {inside : Forest V}
    (here : contents[next]? = some (.branch inside)) :
    mark.next forest =
      some (.ok (.enter, mark.steppedTo (⟨path ++ [next], 0⟩ :: ⟨path, next + 1⟩ :: around))) := by
  have goesOn := hasNext_of_lt stands reached (List.getElem?_eq_some_iff.mp here).1
  rw [Bookmark.next, goesOn, stands]
  simp only [Option.bind_eq_bind, Option.bind_some, if_true, reached, here, steppedTo]

theorem next_exit {outer : Stop} (stands : mark.walk = ⟨path, next⟩ :: outer :: around)
    (reached : forest.contentsAt? path = some contents) (last : contents[next]? = none) :
    mark.next forest = some (.ok (.exit, mark.steppedTo (outer :: around))) := by
  have goesOn : mark.hasNext forest = some true := by
    rw [hasNext, stands]
  rw [Bookmark.next, goesOn, stands]
  simp only [Option.bind_eq_bind, Option.bind_some, if_true, reached, last, steppedTo]

end Steps

/-! ## Calls -/

/-- A bookmark with a view of the level to search is on that level. -/
theorem exists_eq_onLevel {mark : Bookmark} {here : Nat} {view : View}
    (inside : mark.level = some here) (focused : mark.views[here]? = some view) :
    ∃ around deeper, here = around.length ∧
      mark = onLevel mark.walk mark.stale around view deeper := by
  rcases mark with ⟨walk, views, level, stale⟩
  cases inside
  rcases List.getElem?_eq_some_iff.mp focused with ⟨bound, rfl⟩
  have length : here = (views.take here).reverse.length := by
    rw [List.length_reverse, List.length_take_of_le (Nat.le_of_lt bound)]
  refine ⟨(views.take here).reverse, views.drop (here + 1), length, ?_⟩
  rw [onLevel, ← length, List.reverse_reverse, List.getElem_cons_drop, List.take_append_drop]

/-- A call has a result, the numbers stay in order, and the cursor that the
bookmark stands for gives the same answer and moves the same way. -/
def Agrees (forest : Forest V) (ignore : List Symbol) (mark : Bookmark) (call : Cursor.Call) :
    Prop :=
  ∃ reply after, mark.perform forest ignore call = some (reply, after) ∧
    after.WellFormed forest ∧
    (mark.cursor forest).perform ignore call = (reply, after.cursor forest)

/-- A step that is made on both sides agrees. -/
theorem agrees_of_next {forest : Forest V} (ignore : List Symbol) {mark after : Bookmark}
    {visit : Visit V} {place : Place V} (taken : mark.next forest = some (.ok (visit, after)))
    (fits : after.WellFormed forest) (step : Place.Step (mark.cursor forest).position visit place)
    (same : after.cursor forest = .on place) : Agrees forest ignore mark .next := by
  refine ⟨.visited visit, after, ?_, fits, ?_⟩
  · simp only [Bookmark.perform, taken, Option.bind_eq_bind, Option.bind_some]
  · rw [Cursor.perform_next_of_step ignore step, same]

/-- At the end of the forest a step is refused, and nothing changes. -/
theorem perform_next_of_finished {forest : Forest V} (ignore : List Symbol) {mark : Bookmark}
    (finished : mark.hasNext forest = some false) :
    mark.perform forest ignore .next = some (.refused .exhaustedWalk, mark) := by
  simp only [Bookmark.perform, Bookmark.next, finished, Option.bind_eq_bind, Option.bind_some,
    Bool.false_eq_true, if_false]

namespace WellFormed

variable {forest : Forest V} {mark : Bookmark}

theorem resetContext (wellFormed : mark.WellFormed forest) :
    mark.resetContext.WellFormed forest ∧
      mark.resetContext.cursor forest = (mark.cursor forest).resetContext := by
  rcases mark with ⟨walk, views, level, stale⟩
  rcases wellFormed.walk.exists_stop with ⟨stop, around, rfl⟩
  have put : (⟨stop :: around, views, level, stale⟩ : Bookmark).resetContext =
      onLevel (stop :: around) false (around.map Stop.view) stop.view [] := by
    simp only [Bookmark.resetContext, onLevel, List.map_cons, List.reverse_cons, List.length_cons,
      List.length_map, outward]
  rw [put]
  constructor
  · exact ⟨wellFormed.walk, wellFormed.walk.viewsFit⟩
  · have place := @place_onLevel V forest (around.map Stop.view) [] stop.view
    simp only [cursor, onLevel, Bool.false_eq_true, if_false, Option.map_some, place]
    rfl

theorem refresh (wellFormed : mark.WellFormed forest) :
    mark.refresh.WellFormed forest ∧ mark.refresh.stale = false ∧
      mark.refresh.cursor forest = mark.cursor forest := by
  cases stale : mark.stale with
  | false =>
      rw [Bookmark.refresh, stale]
      exact ⟨wellFormed, stale, rfl⟩
  | true =>
      rw [Bookmark.refresh, stale]
      refine ⟨wellFormed.resetContext.1, rfl, ?_⟩
      rw [if_pos rfl, wellFormed.resetContext.2]
      simp only [cursor, Cursor.resetContext, stale, if_true]

/-- A bookmark with a level to search is on that level. -/
theorem exists_onLevel (wellFormed : mark.WellFormed forest) {here : Nat}
    (inside : mark.level = some here) :
    ∃ around view deeper, mark = onLevel mark.walk mark.stale around view deeper := by
  have bound := wellFormed.views.level_lt here inside
  rcases exists_eq_onLevel inside (List.getElem?_eq_getElem bound) with ⟨around, deeper, -, same⟩
  exact ⟨around, mark.views[here], deeper, same⟩

theorem lookUp (wellFormed : mark.WellFormed forest) (ignore : List Symbol) (axis : Axis) :
    ∃ letter after, mark.lookUp forest ignore axis = some (letter, after) ∧
      after.WellFormed forest ∧
      (mark.cursor forest).lookUp ignore axis = (letter, after.cursor forest) := by
  rcases wellFormed.refresh with ⟨fits, fresh, same⟩
  rw [← same, Bookmark.lookUp]
  generalize mark.refresh = current at fits fresh
  cases inside : current.level with
  | none =>
      refine ⟨none, current, search_of_level_eq_none forest ignore axis inside, fits, ?_⟩
      simp only [Cursor.lookUp, cursor, fresh, inside, Bool.false_eq_true, if_false,
        Option.map_none]
  | some here =>
      rcases fits.exists_onLevel inside with ⟨around, ⟨path, focus⟩, deeper, onLevel_eq⟩
      rw [fresh] at onLevel_eq
      rw [onLevel_eq] at fits ⊢
      rcases follows_search ignore current.walk false fits.views axis with
        ⟨views, level, result, viewsFit, place⟩
      refine ⟨_, _, result, ⟨fits.walk, viewsFit⟩, ?_⟩
      have context := @place_onLevel V forest around deeper ⟨path, focus⟩
      simp only [Cursor.lookUp, cursor, onLevel, Bool.false_eq_true, if_false, Option.map_some,
        context, place]

theorem navigate (wellFormed : mark.WellFormed forest) (ignore : List Symbol)
    (direction : Direction) :
    ∃ letter after, mark.navigate forest ignore direction = some (letter, after) ∧
      after.WellFormed forest ∧
      (mark.cursor forest).navigate ignore direction = (letter, after.cursor forest) := by
  rw [Bookmark.navigate, Cursor.navigate]
  cases direction.fromOrigin with
  | false => exact wellFormed.lookUp ignore direction.axis
  | true =>
      rw [if_pos rfl, if_pos rfl, ← wellFormed.resetContext.2]
      exact wellFormed.resetContext.1.lookUp ignore direction.axis

theorem hasNext (wellFormed : mark.WellFormed forest) :
    mark.hasNext forest = some (mark.cursor forest).hasNext := by
  rcases mark with ⟨walk, views, level, stale⟩
  rcases wellFormed.walk.exists_stop with ⟨⟨path, next⟩, around, rfl⟩
  rcases wellFormed.walk.within _ List.mem_cons_self with ⟨contents, reached, bound⟩
  cases around with
  | nil =>
      have ahead : decide (next < contents.length) = !(contents.drop next).isEmpty := by
        rw [Bool.eq_iff_iff, decide_eq_true_eq, Bool.not_eq_true', List.isEmpty_eq_false_iff, ne_eq,
          List.drop_eq_nil_iff, Nat.not_le]
      simp only [Bookmark.hasNext, reached, Option.map_some, Cursor.hasNext, cursor,
        placeOf_walk reached, Level.right_upTo, List.map_nil, ahead]
  | cons outer rest => rfl

/-- A step of the walk has a result, and it is the step of a cursor. -/
theorem next (wellFormed : mark.WellFormed forest) (ignore : List Symbol) :
    Agrees forest ignore mark .next := by
  have goesOn := wellFormed.hasNext
  cases more : (mark.cursor forest).hasNext with
  | false =>
      rw [more] at goesOn
      exact ⟨.refused .exhaustedWalk, mark, perform_next_of_finished ignore goesOn, wellFormed,
        Cursor.perform_next_of_finished ignore more⟩
  | true =>
      rw [more] at goesOn
      rcases mark with ⟨walk, views, level, stale⟩
      rcases wellFormed.walk.exists_stop with ⟨⟨path, next⟩, around, rfl⟩
      rcases wellFormed.walk.within _ List.mem_cons_self with ⟨contents, reached, bound⟩
      dsimp only at reached
      rcases here : contents[next]? with _ | letter | inside
      · cases around with
        | nil =>
            -- On the outermost level the walk only goes on before an element.
            have last := List.getElem?_eq_none_iff.mp here
            simp only [Bookmark.hasNext, reached, Option.map_some, Option.some.injEq,
              decide_eq_true_eq] at goesOn
            omega
        | cons outer rest =>
            exact agrees_of_next ignore (next_exit rfl reached here)
              ⟨wellFormed.walk.exit, wellFormed.views⟩ (step_exit reached here outer) rfl
      · have passed := wellFormed.walk.pass reached (List.getElem?_eq_some_iff.mp here).1
        exact agrees_of_next ignore (next_leaf rfl reached here) ⟨passed, wellFormed.views⟩
          (step_leaf reached here) rfl
      · have passed := wellFormed.walk.pass reached (List.getElem?_eq_some_iff.mp here).1
        exact agrees_of_next ignore (next_enter rfl reached here)
          ⟨passed.enter reached here, wellFormed.views⟩ (step_enter reached here) rfl

/-- A bookmark makes the same steps as the cursor that it stands for. -/
theorem exists_next (wellFormed : mark.WellFormed forest) :
    ∃ result, mark.next forest = some result ∧
      (mark.cursor forest).next = result.map (fun made => (made.1, made.2.cursor forest)) ∧
      ∀ visit after, result = .ok (visit, after) → after.WellFormed forest := by
  rcases wellFormed.next [] with ⟨reply, after, performed, fits, agreed⟩
  rw [Bookmark.perform] at performed
  rw [Cursor.perform] at agreed
  rcases walked : mark.next forest with _ | violation | ⟨visit, moved⟩
  · rw [walked] at performed
    cases performed
  · rw [walked] at performed
    cases performed
    refine ⟨_, rfl, ?_, ?_⟩
    · rcases stepped : (mark.cursor forest).next with other | ⟨visit, moved⟩
      · rw [stepped] at agreed
        cases agreed
        rfl
      · rw [stepped] at agreed
        cases agreed
    · rintro _ _ ⟨⟩
  · rw [walked] at performed
    cases performed
    refine ⟨_, rfl, ?_, ?_⟩
    · rcases stepped : (mark.cursor forest).next with violation | ⟨other, further⟩
      · rw [stepped] at agreed
        cases agreed
      · rw [stepped] at agreed
        cases agreed
        rfl
    · intro other further same
      cases same
      exact fits

/-- There is a stop for each level that the walk is on. -/
theorem length_walk (wellFormed : mark.WellFormed forest) :
    mark.walk.length = (mark.cursor forest).position.enclosing.length + 1 := by
  rcases mark with ⟨walk, views, level, stale⟩
  rcases wellFormed.walk.exists_stop with ⟨stop, around, rfl⟩
  simp only [cursor, List.map_cons, placeOf, List.length_map, List.length_cons]

/-- Every call agrees with the cursor that the bookmark stands for. -/
theorem perform (wellFormed : mark.WellFormed forest) (ignore : List Symbol)
    (call : Cursor.Call) : Agrees forest ignore mark call := by
  cases call with
  | hasNext =>
      refine ⟨.goesOn (mark.cursor forest).hasNext, mark, ?_, wellFormed, rfl⟩
      simp only [Bookmark.perform, wellFormed.hasNext, Option.bind_eq_bind, Option.bind_some]
  | next => exact wellFormed.next ignore
  | resetContext =>
      refine ⟨.reset, mark.resetContext, rfl, wellFormed.resetContext.1, ?_⟩
      rw [wellFormed.resetContext.2]
      rfl
  | lookUp axis =>
      rcases wellFormed.lookUp ignore axis with ⟨letter, after, result, fits, same⟩
      refine ⟨.found letter, after, ?_, fits, ?_⟩
      · simp only [Bookmark.perform, result, Option.bind_eq_bind, Option.bind_some]
      · simp only [Cursor.perform, same]
  | navigate direction =>
      rcases wellFormed.navigate ignore direction with ⟨letter, after, result, fits, same⟩
      refine ⟨.found letter, after, ?_, fits, ?_⟩
      · simp only [Bookmark.perform, result, Option.bind_eq_bind, Option.bind_some]
      · simp only [Cursor.perform, same]

theorem performAll (wellFormed : mark.WellFormed forest) (ignore : List Symbol)
    (calls : List Cursor.Call) :
    ∃ replies after, mark.performAll forest ignore calls = some (replies, after) ∧
      after.WellFormed forest ∧
      (mark.cursor forest).performAll ignore calls = (replies, after.cursor forest) := by
  induction calls generalizing mark with
  | nil => exact ⟨[], mark, rfl, wellFormed, rfl⟩
  | cons call rest inductionHypothesis =>
      rcases wellFormed.perform ignore call with ⟨reply, moved, first, fits, sameFirst⟩
      rcases inductionHypothesis fits with ⟨replies, last, later, fitsLast, sameLater⟩
      refine ⟨reply :: replies, last, ?_, fitsLast, ?_⟩
      · simp only [Bookmark.performAll, first, later, Option.bind_eq_bind, Option.bind_some]
      · simp only [Cursor.performAll, sameFirst, sameLater]

end WellFormed

/-! ## Walks over a forest -/

/-- How the steps that a host has been told of relate to the forest, and what the next
step of a bookmark is going to be. -/
structure Traverses (forest : Forest V) (ignore : List Symbol) (made : List (Visit V))
    (mark : Bookmark) : Prop where
  isPrefix : made <+: Forest.visits forest
  /-- The walk goes on exactly as long as there are visits left. -/
  hasNext_iff : ∃ more, mark.hasNext forest = some more ∧
    (more = true ↔ made ≠ Forest.visits forest)
  /-- A walk that goes on makes the visit that comes next. -/
  next_of_hasNext : mark.hasNext forest = some true →
    ∃ visit moved, mark.perform forest ignore .next = some (.visited visit, moved) ∧
      made ++ [visit] <+: Forest.visits forest
  /-- A step is refused at the end only, and then no number changes. -/
  refused_iff : ∀ violation moved,
    mark.perform forest ignore .next = some (.refused violation, moved) ↔
      mark.hasNext forest = some false ∧ violation = .exhaustedWalk ∧ moved = mark

/-- A bookmark walks a forest as the cursor does that it stands for. -/
theorem WellFormed.traverses {forest : Forest V} {mark : Bookmark}
    (wellFormed : mark.WellFormed forest) {ignore : List Symbol} {made : List (Visit V)}
    (walks : Cursor.Traverses ignore forest made (mark.cursor forest)) :
    mark.Traverses forest ignore made where
  isPrefix := walks.isPrefix
  hasNext_iff := ⟨_, wellFormed.hasNext, walks.hasNext_iff⟩
  next_of_hasNext goesOn := by
    rw [wellFormed.hasNext] at goesOn
    rcases walks.next_of_hasNext (Option.some.inj goesOn) with ⟨visit, moved, performed, further⟩
    rcases wellFormed.next ignore with ⟨reply, after, answered, -, agreed⟩
    rcases Prod.mk.inj (performed.symm.trans agreed) with ⟨rfl, -⟩
    exact ⟨visit, after, answered, further⟩
  refused_iff violation moved := by
    constructor
    · intro refused
      rcases wellFormed.next ignore with ⟨reply, after, answered, -, agreed⟩
      cases refused.symm.trans answered
      have finished := ((walks.refused_iff _ _).mp agreed).1
      rw [← Option.some_inj, ← wellFormed.hasNext] at finished
      cases refused.symm.trans (perform_next_of_finished ignore finished)
      exact ⟨finished, rfl, rfl⟩
    · rintro ⟨finished, rfl, rfl⟩
      exact perform_next_of_finished ignore finished

/-- Whatever is asked of a bookmark over a forest, in whatever order, the steps it has
made are the first visits of the forest, as many as it was asked for.  The cursor that it
stands for has made the same ones, with the same answers in between. -/
theorem traverses_performAll (forest : Forest V) (ignore : List Symbol)
    (calls : List Cursor.Call) :
    ∃ replies mark, start.performAll forest ignore calls = some (replies, mark) ∧
      Cursor.performAll ignore calls (.start forest) = (replies, mark.cursor forest) ∧
      Cursor.visitsMade replies = (Forest.visits forest).take (calls.count .next) ∧
      mark.Traverses forest ignore (Cursor.visitsMade replies) ∧
      Cursor.Traverses ignore forest (Cursor.visitsMade replies) (mark.cursor forest) ∧
      (Forest.visits forest).length = Forest.size forest := by
  rcases (wellFormed_start forest).performAll ignore calls with ⟨replies, mark, made, fits, same⟩
  rw [cursor_start] at same
  have walk := Cursor.traverses_start ignore forest calls
  rw [same] at walk
  exact ⟨replies, mark, made, same, walk.1, fits.traverses walk.2, walk.2,
    Forest.length_visits forest⟩

/-- Whatever is asked of a bookmark over a forest, every call has a result, all
its numbers are in order, and the answers are those of a cursor. -/
theorem wellFormed_performAll (forest : Forest V) (ignore : List Symbol)
    (calls : List Cursor.Call) :
    ∃ replies mark, start.performAll forest ignore calls = some (replies, mark) ∧
      mark.WellFormed forest ∧
      Cursor.performAll ignore calls (.start forest) = (replies, mark.cursor forest) := by
  rw [← cursor_start]
  exact (wellFormed_start forest).performAll ignore calls

end Bookmark
end LSystem
