import LSystem.Proofs.Generation.Outlook
import LSystem.Proofs.Generation.Tracking

namespace LSystem

/-!
# The pages of a draft

Half way through a generation a walk is inside some branches, and each of them has a page of
the draft that is still open.  What the page holds can be told from the old generation alone:
it is the rewriting of the elements of that level which have been completed, up to the branch
in progress on the levels around, and all that have been passed on the innermost one.  Main
statements: each step completes what it should, and at the end the only page left is the whole
next generation.
-/

variable {V : Type}

/-! ## Levels that have been passed in part -/

section Pages

variable (tables : Nat → RuleTable V) (ignore : List Symbol)

/-- Rewrites the elements of a level that have been passed, nearest first, in sight of those
ahead.  The level has been begun after a number of steps. -/
def Forest.rewritePassed (enclosing : List (Level V)) (begun : Nat) :
    List (Element V) → Forest V → Drawing (Forest V)
  | [], _ => pure []
  | element :: passed, ahead => do
      let written ← rewritePassed enclosing begun passed (element :: ahead)
      let last ← element.rewrite tables ignore enclosing passed ahead (begun + Forest.size passed)
      pure (written ++ last)

namespace Place

/-- The number of steps after which a walk begins the level inside some others. -/
def stepsInto : List (Level V) → Nat
  | [] => 0
  | outer :: around => stepsInto around + Forest.size outer.left + 1

/-- The number of steps that lead to a place. -/
def stepsTaken (place : Place V) : Nat :=
  stepsInto place.enclosing + Forest.size place.level.passed

/-- The pages of the levels around, innermost first.  The branch in focus is not completed. -/
def pagesAround : List (Level V) → Drawing (List (Forest V))
  | [] => pure []
  | outer :: around => do
      let pages ← pagesAround around
      let page ← Forest.rewritePassed tables ignore around (stepsInto around) outer.left
        (outer.focus.toList ++ outer.right)
      pure (page :: pages)

/-- The pages of all levels that a walk is on, innermost first. -/
def pages (place : Place V) : Drawing (List (Forest V)) := do
  let pages ← pagesAround tables ignore place.enclosing
  let page ← Forest.rewritePassed tables ignore place.enclosing (stepsInto place.enclosing)
    place.level.passed place.level.right
  pure (page :: pages)

end Place

/-- To rewrite a level is to rewrite what has been passed and then what is ahead. -/
theorem Forest.rewritePassed_append (enclosing : List (Level V)) (begun : Nat)
    (passed : List (Element V)) (ahead : Forest V) :
    (do
      let written ← Forest.rewritePassed tables ignore enclosing begun passed ahead
      let following ← Forest.rewrite tables ignore enclosing passed (begun + Forest.size passed)
        ahead
      pure (written ++ following)) =
      Forest.rewrite tables ignore enclosing [] begun (passed.reverse ++ ahead) := by
  induction passed generalizing ahead with
  | nil =>
      simp [Forest.rewritePassed]
  | cons element passed inductionHypothesis =>
      have further := inductionHypothesis (element :: ahead)
      have steps : begun + Forest.size passed + element.size =
          begun + (element.size + Forest.size passed) := by
        omega
      rw [List.reverse_cons, List.append_assoc, List.singleton_append, ← further]
      simp only [Forest.rewritePassed, Forest.rewrite, Forest.size, bind_assoc, pure_bind, steps,
        List.append_assoc]

/-- A level that has been passed as a whole has been rewritten as a whole. -/
theorem Forest.rewritePassed_nil (enclosing : List (Level V)) (begun : Nat)
    (passed : List (Element V)) :
    Forest.rewritePassed tables ignore enclosing begun passed [] =
      Forest.rewrite tables ignore enclosing [] begun passed.reverse := by
  have whole := Forest.rewritePassed_append tables ignore enclosing begun passed []
  simpa [Forest.rewrite] using whole

end Pages

variable {tables : Nat → RuleTable V} {ignore : List Symbol}

/-! ## Steps of the walk -/

namespace Level

/-- At the end of a level all of it has been passed. -/
theorem contents_of_right_eq_nil {level : Level V} (atEnd : level.right = []) :
    level.contents = level.passed.reverse := by
  rcases level with ⟨left, _ | element, right⟩
  · cases atEnd
    simp [contents, passed]
  · cases atEnd
    simp [contents, passed]

end Level

namespace Place

/-- The steps that lead to a place are those that have been taken. -/
theorem stepsTaken_of_after {forest : Forest V} {steps : Nat} {place : Place V}
    (reached : after forest steps = some place) : place.stepsTaken = steps := by
  refine (after_induction (motive := fun steps place =>
    place.LiesIn forest ∧ place.stepsTaken = steps) ⟨liesIn_root forest, rfl⟩ ?_ reached).2
  rintro steps place visit next step ⟨inside, taken⟩
  refine ⟨step.liesIn inside, ?_⟩
  cases step with
  | leaf left focus letter right enclosing =>
      simp [stepsTaken, Level.passed] at taken ⊢
      omega
  | enter left focus contents right enclosing =>
      simp [stepsTaken, stepsInto, Level.passed, Level.start] at taken ⊢
      omega
  | exit left focus outer around =>
      cases inside with
      | inner branch outside =>
          have size : Forest.size (Level.contents ⟨left, focus, []⟩) =
              Forest.size (focus.toList ++ left) := by
            rw [Level.contents_of_right_eq_nil rfl, Forest.size_reverse]
            rfl
          simp [stepsTaken, stepsInto, Level.passed, branch] at taken size ⊢
          omega

section Steps

variable {place next : Place V}

/-- A branch that is entered gets an empty page. -/
theorem Step.pages_enter (moved : Step place .enter next) :
    next.pages tables ignore = (do
      let pages ← place.pages tables ignore
      pure ([] :: pages)) := by
  cases moved with
  | enter left focus contents right enclosing =>
      simp [pages, pagesAround, Forest.rewritePassed, Level.passed, Level.start]

/-- A branch that is left is complete: its page goes to the page of the level around it. -/
theorem Step.pages_exit {forest : Forest V} (moved : Step place .exit next)
    (inside : place.LiesIn forest) {begun chance : Chance} {drafted : List (Forest V)}
    (written : (place.pages tables ignore).outcome begun = (.ok drafted, chance)) :
    ∃ page outer below, drafted = page :: outer :: below ∧
      (next.pages tables ignore).outcome begun =
        (.ok ((outer ++ [.branch page]) :: below), chance) := by
  cases moved with
  | exit left focus outer around =>
      rcases outer with ⟨outerLeft, outerFocus, outerRight⟩
      cases inside with
      | inner branch outside =>
          cases branch
          -- What is passed of the level is the whole branch, rewritten as it will be on its page.
          have whole := Forest.rewritePassed_nil tables ignore
            (⟨outerLeft, some (.branch (Level.contents ⟨left, focus, []⟩)), outerRight⟩ :: around)
            (stepsInto around + Forest.size outerLeft + 1) (Level.passed ⟨left, focus, []⟩)
          rw [← Level.contents_of_right_eq_nil rfl] at whole
          simp only [pages, pagesAround, stepsInto, bind_assoc, pure_bind, whole] at written
          rcases Drawing.outcome_bind_eq_ok written with ⟨below, first, levels, written⟩
          rcases Drawing.outcome_bind_eq_ok written with ⟨outer, second, half, written⟩
          rcases Drawing.outcome_bind_eq_ok written with ⟨page, third, inner, done⟩
          cases done
          refine ⟨page, outer, below, rfl, ?_⟩
          simp only [pages, Level.passed, Option.toList_some, List.singleton_append,
            Forest.rewritePassed, Element.rewrite, bind_assoc, pure_bind] at half ⊢
          rw [Drawing.outcome_bind_of_ok levels, Drawing.outcome_bind_of_ok half,
            Drawing.outcome_bind_of_ok inner]
          rfl

/-- What becomes of a leaf is added to the innermost page. -/
theorem Step.pages_leaf {letter : Module V} (moved : Step place (.leaf letter) next)
    {step : Nat} (taken : place.stepsTaken = step) {begun chance after : Chance}
    {drafted : List (Forest V)} {fragment : Forest V}
    (written : (place.pages tables ignore).outcome begun = (.ok drafted, chance))
    (replaced : (Site.replacement tables ignore ⟨step, letter, next⟩).outcome chance =
      (.ok fragment, after)) :
    ∃ page below, drafted = page :: below ∧
      (next.pages tables ignore).outcome begun = (.ok ((page ++ fragment) :: below), after) := by
  subst taken
  cases moved with
  | leaf left focus letter right enclosing =>
      rcases Drawing.outcome_bind_eq_ok written with ⟨below, first, levels, written⟩
      rcases Drawing.outcome_bind_eq_ok written with ⟨page, second, passed, done⟩
      cases done
      refine ⟨page, below, rfl, ?_⟩
      simp only [pages, Level.passed, Option.toList_some, List.singleton_append,
        Forest.rewritePassed, Element.rewrite, bind_assoc, pure_bind] at levels passed ⊢
      rw [Drawing.outcome_bind_of_ok levels, Drawing.outcome_bind_of_ok passed]
      exact (Drawing.outcome_bind_of_ok replaced).trans rfl

end Steps

/-- With nothing ahead there is one page, and it is the whole next generation. -/
theorem pages_of_ahead_eq_nil {forest : Forest V} {place : Place V}
    (inside : place.LiesIn forest) (exhausted : place.ahead = []) :
    place.pages tables ignore = (do
      let page ← forest.nextGeneration tables ignore
      pure [page]) := by
  rcases of_ahead_eq_nil exhausted with ⟨atEnd, outermost⟩
  rcases place with ⟨level, enclosing⟩
  cases outermost
  cases inside with
  | outermost whole =>
      dsimp only at atEnd
      rw [Level.contents_of_right_eq_nil atEnd] at whole
      simp only [pages, pagesAround, stepsInto, atEnd, Forest.rewritePassed_nil, whole, pure_bind]
      rfl

end Place

/-! ## Steps of a pass -/

namespace Draft

/-- The pages as they read, innermost first. -/
def pages (draft : Draft V) : List (Forest V) :=
  draft.page.reverse :: draft.enclosing.map List.reverse

@[simp]
theorem pages_openBranch (draft : Draft V) : draft.openBranch.pages = [] :: draft.pages := rfl

theorem pages_append {draft : Draft V} {page : Forest V} {below : List (Forest V)}
    (same : draft.pages = page :: below) (elements : Forest V) :
    (draft.append elements).pages = (page ++ elements) :: below := by
  cases same
  simp [pages, append]

theorem pages_closeBranch {draft : Draft V} {page outer : Forest V} {below : List (Forest V)}
    (same : draft.pages = page :: outer :: below) :
    draft.closeBranch.pages = (outer ++ [.branch page]) :: below := by
  rcases draft with ⟨page, _ | ⟨outer, around⟩⟩
  · cases same
  · cases same
    simp [pages, closeBranch]

end Draft

namespace Pass

/-- The pages of the draft are the rewriting of what has been completed, as far as the source
of chance has got to with it. -/
def KeepsPages (tables : Nat → RuleTable V) (ignore : List Symbol) (begun : Chance)
    (pass : Pass V) (chance : Chance) : Prop :=
  (pass.cursor.position.pages tables ignore).outcome begun = (.ok pass.draft.pages, chance)

theorem keepsPages_start (tables : Nat → RuleTable V) (ignore : List Symbol) (forest : Forest V)
    (chance : Chance) : (start forest).KeepsPages tables ignore chance chance := rfl

section Steps

variable {forest : Forest V} {begun chance after : Chance} {pass next : Pass V}

theorem Step.keepsPages (step : Step (tables pass.tally.visited) ignore pass chance next after)
    (tracks : pass.Tracks forest) (keeps : pass.KeepsPages tables ignore begun chance) :
    next.KeepsPages tables ignore begun after := by
  have steps := Place.stepsTaken_of_after tracks.reached
  cases step with
  | enter moved context draft tally =>
      rw [KeepsPages, Cursor.on, moved.pages_enter, Draft.pages_openBranch]
      exact Drawing.outcome_bind_of_ok keeps
  | exit moved context draft tally =>
      rcases moved.pages_exit tracks.inside.position keeps with ⟨page, outer, below, same, closed⟩
      rw [KeepsPages, Draft.pages_closeBranch same]
      exact closed
  | @drop place reached letter moved inert context draft tally =>
      let site : Site V := ⟨tally.visited, letter, reached⟩
      have vanished : (site.replacement tables ignore).outcome chance = (.ok [], chance) := by
        rw [Site.replacement, RuleTable.outcome_replacement]
        exact if_pos inert
      rcases moved.pages_leaf steps keeps vanished with ⟨page, below, same, dropped⟩
      rw [List.append_nil, ← same] at dropped
      exact dropped
  | @replace place reached letter moved alive chance replacement derived context draft tally =>
      let site : Site V := ⟨tally.visited, letter, reached⟩
      have replaced := site.outcome_replacement_of_alive alive derived
      rcases moved.pages_leaf steps keeps replaced with ⟨page, below, same, written⟩
      rw [KeepsPages, RuleTable.position_derive, Draft.pages_append same]
      exact written
  | @copy place reached letter moved alive chance derived context draft tally =>
      let site : Site V := ⟨tally.visited, letter, reached⟩
      have copied := site.outcome_replacement_of_alive alive derived
      rcases moved.pages_leaf steps keeps copied with ⟨page, below, same, written⟩
      rw [KeepsPages, RuleTable.position_derive, Draft.pages_append same]
      exact written

/-- A pass with nothing ahead has one page left, which is the whole next generation. -/
theorem KeepsPages.finished (keeps : pass.KeepsPages tables ignore begun chance)
    (tracks : pass.Tracks forest) (finished : pass.hasNext = false) :
    ∃ page, pass.draft.pages = [page] ∧
      (forest.nextGeneration tables ignore).outcome begun = (.ok page, chance) := by
  rw [← Bool.not_eq_true, hasNext_iff, Nat.not_lt, Nat.le_zero, List.length_eq_zero_iff] at finished
  rw [KeepsPages, Place.pages_of_ahead_eq_nil tracks.inside.position finished] at keeps
  rcases Drawing.outcome_bind_eq_ok keeps with ⟨page, last, whole, done⟩
  rcases Prod.mk.inj done with ⟨single, rfl⟩
  exact ⟨page, (Except.ok.inj single).symm, whole⟩

end Steps

/-! ## Many steps -/

/-- What a number of steps over a forest come to.  Each step has a table of its own, and none
is taken after one that has failed. -/
def after (forest : Forest V) (tables : Nat → RuleTable V) (ignore : List Symbol)
    (begun : Chance) : Nat → Except Fault (Pass V) × Chance
  | 0 => (.ok (start forest), begun)
  | steps + 1 =>
      match after forest tables ignore begun steps with
      | (.error fault, chance) => (.error fault, chance)
      | (.ok pass, chance) => pass.step (tables steps) ignore chance

/-- What a number of steps over a forest have come to. -/
structure Reached (forest : Forest V) (tables : Nat → RuleTable V) (ignore : List Symbol)
    (begun : Chance) (steps : Nat) (pass : Pass V) (chance : Chance) : Prop where
  tracks : pass.Tracks forest
  visited : pass.tally.visited = steps
  keepsPages : pass.KeepsPages tables ignore begun chance

/-- A step either fails because of a rule or for lack of elements, or it leads on. -/
theorem Reached.step {forest : Forest V} {begun chance : Chance} {steps : Nat} {pass : Pass V}
    (reached : pass.Reached forest tables ignore begun steps chance) :
    (∀ next after, pass.step (tables steps) ignore chance = (.ok next, after) →
      next.Reached forest tables ignore begun (steps + 1) after) ∧
    ∀ fault after, pass.step (tables steps) ignore chance = (.error fault, after) →
      (∃ error, fault = .configuration error) ∨ Forest.size forest < steps + 1 := by
  rcases reached with ⟨tracks, rfl, keepsPages⟩
  cases running : pass.hasNext with
  | true =>
      have stepped := stepped_step (tables pass.tally.visited) ignore chance running
      constructor
      · intro next after made
        rw [made] at stepped
        exact ⟨stepped.tracks tracks, stepped.walks.2, stepped.keepsPages tracks keepsPages⟩
      · intro fault after failed
        rw [failed] at stepped
        rcases stepped with ⟨error, same, -⟩
        exact .inl ⟨error, same⟩
  | false =>
      rw [step_of_finished _ ignore chance running]
      constructor
      · nofun
      · intro fault after failed
        have all := mt tracks.hasNext_iff.mpr (Bool.eq_false_iff.mp running)
        exact .inr (by omega)

theorem reached_after (forest : Forest V) (tables : Nat → RuleTable V) (ignore : List Symbol)
    (begun : Chance) (steps : Nat) :
    (∀ pass chance, after forest tables ignore begun steps = (.ok pass, chance) →
      pass.Reached forest tables ignore begun steps chance) ∧
    ∀ fault chance, after forest tables ignore begun steps = (.error fault, chance) →
      (∃ error, fault = .configuration error) ∨ Forest.size forest < steps := by
  induction steps with
  | zero =>
      constructor
      · intro pass chance same
        cases same
        exact ⟨tracks_start forest, rfl, keepsPages_start tables ignore forest begun⟩
      · nofun
  | succ steps inductionHypothesis =>
      rw [after]
      rcases before : after forest tables ignore begun steps with ⟨fault | pass, chance⟩
      · constructor
        · nofun
        · intro other last same
          cases same
          rcases inductionHypothesis.2 fault chance before with unusable | beyond
          · exact .inl unusable
          · exact .inr (Nat.lt_succ_of_lt beyond)
      · exact (inductionHypothesis.1 pass chance before).step

end Pass
end LSystem
