import LSystem.Proofs.Generation.Pages
import LSystem.Proofs.Rule.Probing

namespace LSystem

/-!
# Manuscripts

A draft always has an open page, and a cursor always has a place.  A manuscript has neither by
itself: it finds its way with a bookmark, and its pages are a pile, where the one to write on
may be missing.  What is done then is left open.  A spare page may stand in for the missing one,
and if there is none, the step has no result.  Main statement: no page is ever missing.  After
any number of steps there is one for each level of the walk, it holds what has been completed of
that level, and all of them together have as many modules as have been counted.
-/

variable {V : Type}

/-! ## Piles of pages -/

/-- Pages one upon the other, the open one on top. -/
abbrev Pile (V : Type) := List (Forest V)

namespace Pile

/-- Adds elements to the page on top, or else to a spare one. -/
def write (spare : Option (Forest V)) (elements : Forest V) : Pile V → Option (Pile V)
  | [] => spare.map fun page => [page ++ elements]
  | page :: below => some ((page ++ elements) :: below)

/-- Takes the page on top away, or else a spare one, and adds it to the next page as a branch. -/
def close (spare : Option (Forest V)) : Pile V → Option (Pile V)
  | [] => spare.bind fun page => write spare [.branch page] []
  | page :: below => write spare [.branch page] below

/-- What is left of a pile in the end: the page at the bottom, or else a spare one.  All others
are thrown away. -/
def bottom (spare : Option (Forest V)) (pile : Pile V) : Option (Forest V) :=
  pile.getLast?.or spare

end Pile

/-! ## Manuscripts -/

/-- A pass that has been laid aside. -/
structure Manuscript (V : Type) where
  mark : Bookmark
  pile : Pile V
  tally : PassTally

namespace Manuscript

/-- In front of a generation, with an empty page. -/
def start : Manuscript V := ⟨.start, [[]], .zero⟩

section Steps

variable (spare : Option (Forest V)) (forest : Forest V) (table : RuleTable V)
  (ignore : List Symbol)

/-- Hands one module on, which the bookmark has just come to. -/
def writeLetter (chance : Chance) (letter : Module V) (script : Manuscript V) :
    Option (Except Fault (Manuscript V) × Chance) :=
  if letter.isInert then some (.ok { script with tally := script.tally.drop }, chance)
  else do
    let ((outcome, chance), mark) ←
      script.mark.pursue forest ignore (table.inquiry letter chance)
    match outcome with
    | .error error => some (.error (.configuration error), chance)
    | .ok (some replacement) =>
        let pile ← script.pile.write spare replacement
        some (.ok ⟨mark, pile, script.tally.replace (Forest.size replacement)⟩, chance)
    | .ok none =>
        let pile ← script.pile.write spare [.leaf letter]
        some (.ok ⟨mark, pile, script.tally.copy⟩, chance)

/-- One step of a pass. -/
def step (chance : Chance) (script : Manuscript V) :
    Option (Except Fault (Manuscript V) × Chance) := do
  match ← script.mark.next forest with
  | .error violation => some (.error (.violation violation), chance)
  | .ok (visit, mark) =>
      let script : Manuscript V := ⟨mark, script.pile, script.tally.visit⟩
      match visit with
      | .enter => some (.ok { script with pile := [] :: script.pile }, chance)
      | .exit =>
          let pile ← script.pile.close spare
          some (.ok { script with pile := pile, tally := script.tally.close }, chance)
      | .leaf letter => script.writeLetter spare forest table ignore chance letter

end Steps

/-- What a number of steps over a forest come to.  Each step has a table of its own, and none
is taken after one that has failed. -/
def after (spare : Option (Forest V)) (forest : Forest V) (tables : Nat → RuleTable V)
    (ignore : List Symbol) (begun : Chance) : Nat → Option (Except Fault (Manuscript V) × Chance)
  | 0 => some (.ok start, begun)
  | steps + 1 => do
      match ← after spare forest tables ignore begun steps with
      | (.error fault, chance) => some (.error fault, chance)
      | (.ok script, chance) => script.step spare forest (tables steps) ignore chance

end Manuscript

/-! ## Drafts as piles -/

namespace Draft

/-- The draft with some pages, innermost first. -/
def ofPages : Pile V → Draft V
  | [] => .blank
  | page :: below => ⟨page.reverse, below.map List.reverse⟩

@[simp]
theorem pages_ofPages (page : Forest V) (below : Pile V) :
    (ofPages (page :: below)).pages = page :: below := by
  simp [pages, ofPages]

@[simp]
theorem openBranch_ofPages (page : Forest V) (below : Pile V) :
    (ofPages (page :: below)).openBranch = ofPages ([] :: page :: below) := rfl

@[simp]
theorem append_ofPages (page elements : Forest V) (below : Pile V) :
    (ofPages (page :: below)).append elements = ofPages ((page ++ elements) :: below) := by
  simp [append, ofPages]

@[simp]
theorem closeBranch_ofPages (page outer : Forest V) (below : Pile V) :
    (ofPages (page :: outer :: below)).closeBranch =
      ofPages ((outer ++ [.branch page]) :: below) := by
  simp [closeBranch, ofPages]

/-- The size of a draft is that of its pages. -/
theorem size_eq_pages (draft : Draft V) : draft.size = (draft.pages.map Forest.size).sum := by
  simp [size, pages, Function.comp_def]

end Draft

namespace Manuscript

/-! ## One step -/

/-- The pass that a manuscript stands for. -/
def pass (forest : Forest V) (script : Manuscript V) : Pass V :=
  ⟨script.mark.cursor forest, .ofPages script.pile, script.tally⟩

/-- The numbers of the bookmark are in order, and there is a page for each of its stops. -/
structure Fits (forest : Forest V) (script : Manuscript V) : Prop where
  mark : script.mark.WellFormed forest
  pile : script.pile.length = script.mark.walk.length

/-- What one step comes to, whatever the spare page: the result of the step of the pass, and a
manuscript whose parts fit. -/
def Steps (forest : Forest V) (passed : Except Fault (Pass V) × Chance)
    (made : Option (Forest V) → Option (Except Fault (Manuscript V) × Chance)) : Prop :=
  ∃ result after, (∀ spare, made spare = some (result, after)) ∧
    passed = (result.map (·.pass forest), after) ∧
    ∀ next, result = .ok next → next.Fits forest

theorem fits_start (forest : Forest V) : (start : Manuscript V).Fits forest :=
  ⟨Bookmark.wellFormed_start forest, rfl⟩

section Steps

variable {forest : Forest V} {passed : Except Fault (Pass V) × Chance}
  {made : Option (Forest V) → Option (Except Fault (Manuscript V) × Chance)}

theorem Steps.of_ok (next : Manuscript V) (after : Chance)
    (reached : ∀ spare, made spare = some (.ok next, after))
    (same : passed = (.ok (next.pass forest), after)) (fits : next.Fits forest) :
    Steps forest passed made := by
  refine ⟨.ok next, after, reached, same, ?_⟩
  rintro _ ⟨⟩
  exact fits

theorem Steps.of_error (fault : Fault) (after : Chance)
    (failed : ∀ spare, made spare = some (.error fault, after))
    (same : passed = (.error fault, after)) : Steps forest passed made := by
  refine ⟨.error fault, after, failed, same, ?_⟩
  rintro _ ⟨⟩

variable {mark : Bookmark} {page : Forest V} {below : Pile V}

theorem steps_writeLetter (table : RuleTable V) (ignore : List Symbol) (chance : Chance)
    (letter : Module V) (tally : PassTally)
    (fits : Fits forest ⟨mark, page :: below, tally⟩) :
    Steps forest
      ((pass forest ⟨mark, page :: below, tally⟩).writeLetter table ignore chance letter)
      fun spare => writeLetter spare forest table ignore chance letter
        ⟨mark, page :: below, tally⟩ := by
  cases inert : letter.isInert with
  | true =>
      refine .of_ok ⟨mark, page :: below, tally.drop⟩ chance ?_ ?_ ⟨fits.mark, fits.pile⟩
      · intro spare
        simp only [writeLetter, inert, if_true]
      · simp only [Pass.writeLetter, inert, if_true]
        rfl
  | false =>
      have alive := Bool.eq_false_iff.mp inert
      rcases fits.mark.derives table ignore letter chance with ⟨moved, asked, fitsMoved, same⟩
      have stays := table.position_derive ignore letter (mark.cursor forest) chance
      have written (more : Forest V) (tally : PassTally) :
          Fits forest ⟨moved, (page ++ more) :: below, tally⟩ := by
        refine ⟨fitsMoved, ?_⟩
        rw [fitsMoved.length_walk, same, stays, ← fits.mark.length_walk]
        exact fits.pile
      dsimp only at asked same
      generalize found : table.derive ignore letter (mark.cursor forest) chance = derivation
        at asked same
      rcases derived : derivation.outcome with error | _ | replacement
      · rw [derived] at asked
        refine .of_error (.configuration error) derivation.chance ?_ ?_
        · intro spare
          simp only [writeLetter, if_neg alive, asked, Option.bind_eq_bind, Option.bind_some]
        · simp only [Pass.writeLetter, pass, if_neg alive, found, derived]
      · rw [derived] at asked
        refine .of_ok ⟨moved, (page ++ [.leaf letter]) :: below, tally.copy⟩ derivation.chance
          ?_ ?_ (written _ _)
        · intro spare
          simp only [writeLetter, if_neg alive, asked, Option.bind_eq_bind, Option.bind_some,
            Pile.write]
        · simp [Pass.writeLetter, pass, inert, found, derived, same]
      · rw [derived] at asked
        refine .of_ok ⟨moved, (page ++ replacement) :: below,
          tally.replace (Forest.size replacement)⟩ derivation.chance ?_ ?_ (written _ _)
        · intro spare
          simp only [writeLetter, if_neg alive, asked, Option.bind_eq_bind, Option.bind_some,
            Pile.write]
        · simp [Pass.writeLetter, pass, inert, found, derived, same]

theorem Fits.step {script : Manuscript V} (fits : script.Fits forest) (table : RuleTable V)
    (ignore : List Symbol) (chance : Chance) :
    Steps forest ((script.pass forest).step table ignore chance)
      fun spare => script.step spare forest table ignore chance := by
  rcases script with ⟨mark, pile, tally⟩
  rcases fits.mark.exists_next with ⟨result, walked, same, fitsNext⟩
  have length := fits.pile
  rw [fits.mark.length_walk] at length
  dsimp only at walked same length
  rcases pile with _ | ⟨page, below⟩
  · cases length
  rcases result with violation | ⟨visit, moved⟩
  · refine .of_error (.violation violation) chance ?_ ?_
    · intro spare
      simp only [Manuscript.step, walked, Option.bind_eq_bind, Option.bind_some]
    · simp only [Pass.step, pass, same, Except.map]
  · have fitsMoved := fitsNext visit moved rfl
    have paged := fitsMoved.length_walk
    have next : (mark.cursor forest).next = .ok (visit, moved.cursor forest) := same
    have depth := (Cursor.step_of_next next).length_enclosing
    cases visit with
    | enter =>
        refine .of_ok ⟨moved, [] :: page :: below, tally.visit⟩ chance ?_ ?_ ?_
        · intro spare
          simp only [Manuscript.step, walked, Option.bind_eq_bind, Option.bind_some]
        · simp [Pass.step, pass, next]
        · refine ⟨fitsMoved, ?_⟩
          rw [paged, depth, ← length]
          rfl
    | exit =>
        -- There is a level around the one that is left, so there is a page below.
        rcases below with _ | ⟨outer, below⟩
        · rw [depth] at length
          cases length
        · refine .of_ok ⟨moved, (outer ++ [.branch page]) :: below, tally.visit.close⟩ chance
            ?_ ?_ ?_
          · intro spare
            simp only [Manuscript.step, walked, Option.bind_eq_bind, Option.bind_some, Pile.close,
              Pile.write]
          · simp [Pass.step, pass, next]
          · refine ⟨fitsMoved, ?_⟩
            rw [depth] at length
            rw [paged]
            exact Nat.succ.inj length
    | leaf letter =>
        have fitsLeaf : Fits forest ⟨moved, page :: below, tally.visit⟩ := by
          refine ⟨fitsMoved, ?_⟩
          rw [paged, depth, ← length]
        rcases steps_writeLetter table ignore chance letter tally.visit fitsLeaf with
          ⟨result, after, made, told, fitsResult⟩
        refine ⟨result, after, ?_, ?_, fitsResult⟩
        · intro spare
          simp only [Manuscript.step, walked, Option.bind_eq_bind, Option.bind_some]
          exact made spare
        · simp only [Pass.step, pass, next]
          exact told

end Steps

/-! ## Many steps -/

/-- A manuscript after a number of steps over a forest, begun with one source of chance, which
has got to another. -/
structure InOrder (forest : Forest V) (tables : Nat → RuleTable V) (ignore : List Symbol)
    (begun : Chance) (steps : Nat) (script : Manuscript V) (chance : Chance) : Prop where
  wellFormed : script.mark.WellFormed forest
  /-- There is a page for each stop of the walk. -/
  length_pile : script.pile.length = script.mark.walk.length
  /-- So there is one to write on, and one below it when a branch is about to be closed. -/
  writable : ∃ page below, script.pile = page :: below
  closable : ∀ after, script.mark.next forest = some (.ok (.exit, after)) →
    ∃ page outer below, script.pile = page :: outer :: below
  counted : (script.pile.map Forest.size).sum = script.tally.moduleCount
  visited : script.tally.visited = steps
  /-- Each page is the rewriting of what has been completed of its level. -/
  written : ((script.mark.cursor forest).position.pages tables ignore).outcome begun =
    (.ok script.pile, chance)
  /-- In the end there is nothing to throw away: the only page is the next generation. -/
  finished : script.mark.hasNext forest = some false →
    ∃ page, script.pile = [page] ∧ (∀ spare, script.pile.bottom spare = some page) ∧
      (forest.nextGeneration tables ignore).outcome begun = (.ok page, chance)

section Many

variable {forest : Forest V} {tables : Nat → RuleTable V} {ignore : List Symbol}
  {begun chance : Chance} {steps : Nat}

theorem Fits.inOrder {script : Manuscript V} (fits : script.Fits forest)
    (reached : (script.pass forest).Reached forest tables ignore begun steps chance) :
    script.InOrder forest tables ignore begun steps chance := by
  have length := fits.pile
  rw [fits.mark.length_walk] at length
  obtain ⟨page, below, pile⟩ : ∃ page below, script.pile = page :: below :=
    List.exists_cons_of_length_eq_add_one length
  have pages : (script.pass forest).draft.pages = script.pile := by
    simp [pass, pile]
  have written := reached.keepsPages
  rw [Pass.KeepsPages, pages] at written
  refine ⟨fits.mark, fits.pile, ⟨page, below, pile⟩, ?_, ?_, reached.visited, written, ?_⟩
  · intro after walked
    rcases fits.mark.exists_next with ⟨result, made, same, -⟩
    rw [walked] at made
    cases made
    have depth := (Cursor.step_of_next same).length_enclosing
    rw [depth, pile] at length
    rcases below with _ | ⟨outer, below⟩
    · cases length
    · exact ⟨page, outer, below, pile⟩
  · rw [← pages, ← Draft.size_eq_pages, ← reached.tracks.counted]
    rfl
  · intro stopped
    rw [fits.mark.hasNext] at stopped
    have finished : (script.pass forest).hasNext = false := Option.some.inj stopped
    rcases reached.keepsPages.finished reached.tracks finished with ⟨whole, single, rewritten⟩
    rw [pages] at single
    refine ⟨whole, single, ?_, rewritten⟩
    intro spare
    rw [single]
    rfl

/-- A manuscript is stepped on just as the pass that it stands for. -/
theorem steps_after (forest : Forest V) (tables : Nat → RuleTable V) (ignore : List Symbol)
    (begun : Chance) (steps : Nat) :
    Steps forest (Pass.after forest tables ignore begun steps)
      fun spare => after spare forest tables ignore begun steps := by
  induction steps with
  | zero =>
      refine .of_ok start begun (fun _ => rfl) ?_ (fits_start forest)
      simp [Pass.after, Pass.start, pass, start, Draft.ofPages, Draft.blank]
  | succ steps inductionHypothesis =>
      rcases inductionHypothesis with ⟨result, chance, made, same, fits⟩
      rcases result with fault | script
      · refine .of_error fault chance ?_ ?_
        · intro spare
          simp only [after, made spare, Option.bind_eq_bind, Option.bind_some]
        · simp only [Pass.after, same, Except.map]
      · rcases (fits script rfl).step (tables steps) ignore chance with
          ⟨result, later, stepped, told, fitsResult⟩
        refine ⟨result, later, ?_, ?_, fitsResult⟩
        · intro spare
          simp only [after, made spare, Option.bind_eq_bind, Option.bind_some]
          exact stepped spare
        · simp only [Pass.after, same, Except.map]
          exact told

/-- Whatever is taken for missing pages, a number of steps has the same result as for the pass.
It is a fault only if a rule is unusable or the forest has fewer elements to visit, and
otherwise all parts of the manuscript are in order. -/
theorem inOrder_after (forest : Forest V) (tables : Nat → RuleTable V) (ignore : List Symbol)
    (begun : Chance) (steps : Nat) :
    ∃ result chance,
      (∀ spare, after spare forest tables ignore begun steps = some (result, chance)) ∧
      Pass.after forest tables ignore begun steps = (result.map (·.pass forest), chance) ∧
      (∀ fault, result = .error fault →
        (∃ error, fault = .configuration error) ∨ Forest.size forest < steps) ∧
      ∀ script, result = .ok script →
        script.InOrder forest tables ignore begun steps chance := by
  rcases steps_after forest tables ignore begun steps with ⟨result, chance, made, same, fits⟩
  have reached := Pass.reached_after forest tables ignore begun steps
  refine ⟨result, chance, made, same, ?_, ?_⟩
  · rintro fault rfl
    exact reached.2 fault chance same
  · rintro script rfl
    exact (fits script rfl).inOrder (reached.1 _ chance same)

/-- Inside of a branch there are two pages, the one of the branch on top. -/
example :
    (after none [.leaf (.plain ⟨"A"⟩), .branch [.leaf (.plain .inert), .leaf (.plain ⟨"B"⟩)]]
      (fun _ => .empty) [] chance 4 : Option (Except Fault (Manuscript V) × Chance)).map
      (fun made => made.1.map (·.pile)) =
    some (.ok [[.leaf (.plain ⟨"B"⟩)], [.leaf (.plain ⟨"A"⟩)]]) := rfl

end Many

end Manuscript
end LSystem
