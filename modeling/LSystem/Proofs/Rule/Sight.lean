import LSystem.Proofs.Cursor.Outline
import LSystem.Proofs.Generation.Rewriting
import LSystem.Proofs.Rule.Chain

namespace LSystem

/-!
# What a match sees

A match comes to know of its surroundings only by lookups, so it sees no more of them
than an outline shows.  Main statement: at two leaves with the same module and the
same outline around them, be it in different forests, a rule matches alike, whatever
has been looked up or tried before.
-/

variable {V : Type}

/-! ## Matching in outline -/

namespace Outlining

variable {ignore : List Symbol} {outline : Element V → Option (Element V)}

/-- A chain is followed in outline as it is in the forest. -/
theorem follow_outlined (outlining : Outlining ignore outline)
    (context : List ContextPredecessor)
    (downward : ∀ predecessor ∈ context, predecessor.direction.axis = .child →
      GoesInward outline)
    (origin : Place V) (focus : Option (Place V)) :
    (CompiledRule.follow ignore context
        ⟨origin.outlined outline, focus.map (·.outlined outline)⟩).1 =
      (CompiledRule.follow ignore context ⟨origin, focus⟩).1 := by
  induction context generalizing focus with
  | nil => rfl
  | cons predecessor rest inductionHypothesis =>
      have startOutlined : predecessor.direction.start (origin.outlined outline)
          (focus.map (·.outlined outline)) =
            (predecessor.direction.start origin focus).map (·.outlined outline) := by
        unfold Direction.start
        split <;> rfl
      have later := inductionHypothesis fun further member =>
        downward further (List.mem_cons_of_mem predecessor member)
      rcases starts : predecessor.direction.start origin focus with _ | place
      · rw [starts] at startOutlined
        rw [CompiledRule.follow_of_start_eq_none starts,
          CompiledRule.follow_of_start_eq_none startOutlined]
      · rw [starts] at startOutlined
        have looked := outlining.lookUp_outlined predecessor.direction.axis
          (downward predecessor List.mem_cons_self) place
        have sameFound := congrArg Lookup.found looked
        rcases found : (place.lookUp ignore predecessor.direction.axis).found with _ | letter
        · rw [CompiledRule.follow_of_found_eq_none starts found,
            CompiledRule.follow_of_found_eq_none startOutlined (sameFound.trans found)]
        · rw [CompiledRule.follow_of_found starts found,
            CompiledRule.follow_of_found startOutlined (sameFound.trans found), looked]
          dsimp only [Lookup.outlined]
          rw [later]

/-- A rule sees no more of a place than the outline shows. -/
theorem matchAt_outlined (outlining : Outlining ignore outline) (rule : CompiledRule V)
    (downward : ∀ predecessor ∈ rule.context, predecessor.direction.axis = .child →
      GoesInward outline)
    (letter : Module V) (place : Place V) :
    (rule.matchAt ignore letter (.on (place.outlined outline))).1 =
      (rule.matchAt ignore letter (.on place)).1 := by
  by_cases strict : letter.signature = rule.strict
  · rw [CompiledRule.matchAt_of_strict strict, CompiledRule.matchAt_of_strict strict]
    have followed := outlining.follow_outlined rule.context downward place (some place)
    exact congrArg (fun gathered => (gathered.map (letter.arguments ++ ·)).filter rule.admits)
      followed
  · rw [CompiledRule.matchAt_of_not_strict strict, CompiledRule.matchAt_of_not_strict strict]

end Outlining

/-! ## Leaves of a walk -/

/-- A site stands for the visit of its leaf: the visits of a level have it where the
step of the site says. -/
theorem Forest.exists_visits_of_mem_sites {forest : Forest V} {enclosing : List (Level V)}
    {left : List (Element V)} {step : Nat} {site : Site V}
    (member : site ∈ Forest.sites enclosing left step forest) :
    ∃ before after, Forest.visits forest = before ++ .leaf site.letter :: after ∧
      site.step = step + before.length := by
  induction forest using Forest.induction generalizing enclosing left step with
  | nil => cases member
  | leaf first rest inRest =>
      rw [Forest.sites, Element.sites] at member
      rcases List.mem_append.mp member with atFirst | beyond
      · rw [List.mem_singleton.mp atFirst]
        exact ⟨[], Forest.visits rest, rfl, rfl⟩
      · rcases inRest beyond with ⟨before, after, visits, position⟩
        refine ⟨.leaf first :: before, after, ?_, ?_⟩
        · simp [visits]
        · rw [position, Element.size, List.length_cons]
          omega
  | branch contents rest inContents inRest =>
      rw [Forest.sites, Element.sites] at member
      rcases List.mem_append.mp member with inside | beyond
      · rcases inContents inside with ⟨before, after, visits, position⟩
        refine ⟨.enter :: before, after ++ .exit :: Forest.visits rest, ?_, ?_⟩
        · simp [visits]
        · rw [position, List.length_cons]
          omega
      · rcases inRest beyond with ⟨before, after, visits, position⟩
        refine ⟨.enter :: (Forest.visits contents ++ .exit :: before), after, ?_, ?_⟩
        · simp [visits]
        · simp [position]
          omega

theorem Forest.visit_of_mem_allSites {forest : Forest V} {site : Site V}
    (member : site ∈ forest.allSites) :
    (Forest.visits forest)[site.step]? = some (.leaf site.letter) := by
  rcases Forest.exists_visits_of_mem_sites member with ⟨before, after, visits, position⟩
  rw [visits, position, Nat.zero_add, List.getElem?_append_right (Nat.le_refl _), Nat.sub_self]
  rfl

theorem Place.onward_of_after {forest : Forest V} {steps : Nat} {place : Place V}
    (reached : after forest steps = some place) : (root forest).onward steps = place := by
  refine after_induction (motive := fun steps place => (root forest).onward steps = place) rfl ?_
    reached
  intro steps place visit next step walked
  rw [onward_add, walked]
  simp only [onward, step?_eq_some_iff.mpr step]

/-! ## Two leaves -/

/-- A rule is matched with the same result at the visit of a leaf of one forest and at
the visit of a leaf of another forest. -/
structure MatchedAlike (ignore : List Symbol) (rule : CompiledRule V) (forest other : Forest V)
    (site counterpart : Site V) : Prop where
  letter : counterpart.letter = site.letter
  visited : (Forest.visits forest)[site.step]? = some (.leaf site.letter)
  visitedToo : (Forest.visits other)[counterpart.step]? = some (.leaf counterpart.letter)
  /-- Only the steps of the walks count, not what has been done on the way. -/
  matched : ∃ arguments, ∀ history histories : List (Probe V),
    history.countP Probe.isStep = site.step + 1 →
    histories.countP Probe.isStep = counterpart.step + 1 →
      Answered forest ignore history [.attempt rule site.letter] [.matched arguments] ∧
      Answered other ignore histories [.attempt rule counterpart.letter] [.matched arguments]

/-- An attempt at a leaf has the result that the place of the leaf gives it. -/
theorem Forest.answered_of_mem_allSites {forest : Forest V} {site : Site V}
    (member : site ∈ forest.allSites) (ignore : List Symbol) (rule : CompiledRule V)
    {history : List (Probe V)} (counted : history.countP Probe.isStep = site.step + 1) :
    Answered forest ignore history [.attempt rule site.letter]
      [.matched (rule.matchAt ignore site.letter (.on site.place)).1] := by
  have answered : Answered forest ignore history [.attempt rule site.letter]
      (Cursor.answersAt ignore ((Place.root forest).onward (site.step + 1))
        [.attempt rule site.letter]) :=
    Renewed.answered (.byAttempt history rule site.letter []) counted
  rw [Place.onward_of_after (Forest.after_of_mem_allSites member)] at answered
  exact answered

/-- What looks alike in outline is matched alike. -/
theorem Outlining.matchedAlike {ignore : List Symbol}
    {outline : Element V → Option (Element V)} (outlining : Outlining ignore outline)
    {rule : CompiledRule V}
    (downward : ∀ predecessor ∈ rule.context, predecessor.direction.axis = .child →
      GoesInward outline)
    {forest other : Forest V} {site counterpart : Site V} (member : site ∈ forest.allSites)
    (memberToo : counterpart ∈ other.allSites) (letter : counterpart.letter = site.letter)
    (place : counterpart.place.outlined outline = site.place.outlined outline) :
    MatchedAlike ignore rule forest other site counterpart where
  letter := letter
  visited := Forest.visit_of_mem_allSites member
  visitedToo := Forest.visit_of_mem_allSites memberToo
  matched := by
    have same : (rule.matchAt ignore counterpart.letter (.on counterpart.place)).1 =
        (rule.matchAt ignore site.letter (.on site.place)).1 := by
      rw [← outlining.matchAt_outlined rule downward, place, letter,
        outlining.matchAt_outlined rule downward]
    refine ⟨(rule.matchAt ignore site.letter (.on site.place)).1, ?_⟩
    intro history histories counted countedToo
    refine ⟨Forest.answered_of_mem_allSites member ignore rule counted, ?_⟩
    rw [← same]
    exact Forest.answered_of_mem_allSites memberToo ignore rule countedToo

end LSystem
