import LSystem.Proofs.Rule.Firing

namespace LSystem

/-!
# Parallel rewriting

What one generation makes of a forest, said without any walk: a map over the
forest as it stands, in which every leaf becomes a fragment and every branch
becomes one branch again.  A leaf is replaced at its own site in the forest, so
all that is known to a rule is the old generation.  The only thing handed on
from leaf to leaf is the source of chance.

Sites carry the number of the step at which a walk comes to them, because the
rules may be replaced between two steps.  Main statements: the sites of a forest
are the places where a walk meets its leaves, and a rewriting that succeeds
makes one draw for each site whose rule chooses by chance.
-/

variable {V : Type}

/-! ## Work that draws numbers -/

/-- Work that may draw numbers and may find out that a rule is unusable.  Draws
stay made when it fails. -/
abbrev Drawing := ExceptT ConfigurationError (StateM Chance)

namespace Drawing

variable {α β : Type}

/-- What the work comes to with a given source. -/
def outcome (work : Drawing α) (chance : Chance) : Except ConfigurationError α × Chance :=
  work.run.run chance

@[simp]
theorem outcome_pure (result : α) (chance : Chance) :
    (pure result : Drawing α).outcome chance = (.ok result, chance) := rfl

@[simp]
theorem outcome_bind (work : Drawing α) (next : α → Drawing β) (chance : Chance) :
    (work >>= next).outcome chance =
      match work.outcome chance with
      | (.ok result, chance) => (next result).outcome chance
      | (.error error, chance) => (.error error, chance) := by
  unfold outcome
  rw [ExceptT.run_bind, StateT.run_bind]
  rcases StateT.run (ExceptT.run work) chance with ⟨_ | result, after⟩ <;> rfl

@[simp]
theorem outcome_map (make : α → β) (work : Drawing α) (chance : Chance) :
    (make <$> work).outcome chance =
      match work.outcome chance with
      | (.ok result, chance) => (.ok (make result), chance)
      | (.error error, chance) => (.error error, chance) := by
  rw [map_eq_pure_bind, outcome_bind]
  rcases work.outcome chance with ⟨_ | result, after⟩ <;> rfl

theorem outcome_bind_of_ok {work : Drawing α} {next : α → Drawing β}
    {chance after : Chance} {result : α} (done : work.outcome chance = (.ok result, after)) :
    (work >>= next).outcome chance = (next result).outcome after := by
  rw [outcome_bind, done]

/-- Work that succeeds has succeeded in both of its parts. -/
theorem outcome_bind_eq_ok {work : Drawing α} {next : α → Drawing β} {result : β}
    {chance after : Chance} (succeeded : (work >>= next).outcome chance = (.ok result, after)) :
    ∃ first between, work.outcome chance = (.ok first, between) ∧
      (next first).outcome between = (.ok result, after) := by
  rw [outcome_bind] at succeeded
  rcases done : work.outcome chance with ⟨_ | first, between⟩
  · rw [done] at succeeded
    cases succeeded
  · rw [done] at succeeded
    exact ⟨first, between, rfl, succeeded⟩

end Drawing

/-! ## Leaves -/

/-- What becomes of a module at a place.  An inert module vanishes, one that a
rule applies to gives way to the production, and every other one stays. -/
def RuleTable.replacement (table : RuleTable V) (ignore : List Symbol) (letter : Module V)
    (place : Place V) : Drawing (Forest V) :=
  if letter.isInert then pure []
  else ExceptT.mk fun chance =>
    let derivation := table.derive ignore letter (.on place) chance
    (derivation.outcome.map (·.getD [.leaf letter]), derivation.chance)

theorem RuleTable.outcome_replacement (table : RuleTable V) (ignore : List Symbol)
    (letter : Module V) (place : Place V) (chance : Chance) :
    (table.replacement ignore letter place).outcome chance =
      if letter.isInert then (.ok [], chance)
      else
        ((table.derive ignore letter (.on place) chance).outcome.map (·.getD [.leaf letter]),
          (table.derive ignore letter (.on place) chance).chance) := by
  unfold replacement
  split <;> rfl

/-- A leaf of a forest, the place of it, and the number of the step that meets it. -/
structure Site (V : Type) where
  step : Nat
  letter : Module V
  place : Place V

namespace Site

/-- What becomes of the leaf under the table in force at its step. -/
def replacement (tables : Nat → RuleTable V) (ignore : List Symbol) (site : Site V) :
    Drawing (Forest V) :=
  (tables site.step).replacement ignore site.letter site.place

/-- Whether a rule fires there that has to choose among successors. -/
def draws (tables : Nat → RuleTable V) (ignore : List Symbol) (site : Site V) : Bool :=
  !site.letter.isInert && (tables site.step).drawsAt ignore site.letter site.place

/-- A leaf that is not inert gives way to what is derived from it, or stays. -/
theorem outcome_replacement_of_alive {tables : Nat → RuleTable V} {ignore : List Symbol}
    (site : Site V) {chance : Chance}
    {made : Option (Forest V)} (alive : site.letter.isInert = false)
    (derived : ((tables site.step).derive ignore site.letter (.on site.place) chance).outcome =
      .ok made) :
    (site.replacement tables ignore).outcome chance =
      (.ok (made.getD [.leaf site.letter]),
        ((tables site.step).derive ignore site.letter (.on site.place) chance).chance) := by
  rw [replacement, RuleTable.outcome_replacement, if_neg (Bool.eq_false_iff.mp alive), derived]
  rfl

theorem replacement_draws {tables : Nat → RuleTable V} {ignore : List Symbol} {site : Site V}
    {chance after : Chance} {written : Forest V}
    (replaced : (site.replacement tables ignore).outcome chance = (.ok written, after)) :
    after = chance.skip (if site.draws tables ignore then 1 else 0) := by
  unfold replacement at replaced
  rw [RuleTable.outcome_replacement] at replaced
  unfold draws
  split at replaced
  · next inert =>
      cases replaced
      rw [inert]
      rfl
  · next alive =>
      rw [Bool.not_eq_true] at alive
      rw [alive, Bool.not_false, Bool.true_and, ← (Prod.mk.inj replaced).2]
      have outcome := (Prod.mk.inj replaced).1
      rcases derived : ((tables site.step).derive ignore site.letter (.on site.place)
          chance).outcome with _ | replacement
      · rw [derived] at outcome
        cases outcome
      · exact RuleTable.chance_of_derive derived

end Site

/-! ## Forests -/

section Rewrite

variable (tables : Nat → RuleTable V) (ignore : List Symbol)

mutual

/-- Rewrites one element between what lies to its left, nearest first, and what
lies to its right, inside the levels around it. -/
def Element.rewrite (enclosing : List (Level V)) (left right : List (Element V)) (step : Nat) :
    Element V → Drawing (Forest V)
  | .leaf letter =>
      Site.replacement tables ignore ⟨step, letter, ⟨⟨left, some (.leaf letter), right⟩, enclosing⟩⟩
  | .branch contents => do
      let outer : Level V := ⟨left, some (.branch contents), right⟩
      let written ← Forest.rewrite (outer :: enclosing) [] (step + 1) contents
      pure [.branch written]

/-- Rewrites the rest of a level, element by element, the first of which is met
at a given step. -/
def Forest.rewrite (enclosing : List (Level V)) (left : List (Element V)) (step : Nat) :
    Forest V → Drawing (Forest V)
  | [] => pure []
  | element :: rest => do
      let written ← element.rewrite enclosing left rest step
      let following ← Forest.rewrite enclosing (element :: left) (step + element.size) rest
      pure (written ++ following)

end

/-- The generation that follows a forest. -/
def Forest.nextGeneration (forest : Forest V) : Drawing (Forest V) :=
  Forest.rewrite tables ignore [] [] 0 forest

end Rewrite

mutual

/-- The sites of one element, laid out as for `Element.rewrite`. -/
def Element.sites (enclosing : List (Level V)) (left right : List (Element V)) (step : Nat) :
    Element V → List (Site V)
  | .leaf letter => [⟨step, letter, ⟨⟨left, some (.leaf letter), right⟩, enclosing⟩⟩]
  | .branch contents =>
      Forest.sites (⟨left, some (.branch contents), right⟩ :: enclosing) [] (step + 1) contents

/-- The sites of the rest of a level, depth first and from left to right. -/
def Forest.sites (enclosing : List (Level V)) (left : List (Element V)) (step : Nat) :
    Forest V → List (Site V)
  | [] => []
  | element :: rest =>
      element.sites enclosing left rest step ++
        Forest.sites enclosing (element :: left) (step + element.size) rest

end

attribute [simp] Element.sites Forest.sites

/-- All sites of a forest. -/
def Forest.allSites (forest : Forest V) : List (Site V) := Forest.sites [] [] 0 forest

/-- There is a site for each leaf, in the same order. -/
@[simp]
theorem Forest.letters_sites (enclosing : List (Level V)) (left : List (Element V)) (step : Nat)
    (forest : Forest V) :
    (Forest.sites enclosing left step forest).map (·.letter) = Forest.leaves forest := by
  induction forest using Forest.induction generalizing enclosing left step with
  | nil => rfl
  | leaf first rest inRest => simp [inRest]
  | branch contents rest inContents inRest => simp [inContents, inRest]

/-! ## Draws -/

namespace Site

/-- Replaces the leaves of sites one after another, for the sake of the draws. -/
def replaceAll (tables : Nat → RuleTable V) (ignore : List Symbol) :
    List (Site V) → Drawing Unit
  | [] => pure ()
  | site :: rest => do
      let _ ← site.replacement tables ignore
      replaceAll tables ignore rest

variable {tables : Nat → RuleTable V} {ignore : List Symbol}

@[simp]
theorem replaceAll_append (first second : List (Site V)) :
    replaceAll tables ignore (first ++ second) = (do
      replaceAll tables ignore first
      replaceAll tables ignore second) := by
  induction first with
  | nil => simp [replaceAll]
  | cons site rest inductionHypothesis => simp [replaceAll, inductionHypothesis]

theorem chance_of_replaceAll {sites : List (Site V)} {chance after : Chance}
    (succeeded : (replaceAll tables ignore sites).outcome chance = (.ok (), after)) :
    after = chance.skip (sites.countP (·.draws tables ignore)) := by
  induction sites generalizing chance with
  | nil =>
      cases succeeded
      rfl
  | cons site rest inductionHypothesis =>
      rcases Drawing.outcome_bind_eq_ok succeeded with ⟨fragment, between, replaced, continued⟩
      rw [inductionHypothesis continued, replacement_draws replaced, Chance.skip_skip,
        List.countP_cons, Nat.add_comm]

/-- A leaf is replaced when the earlier ones have made their draws. -/
theorem replacement_of_replaceAll {earlier later : List (Site V)} {site : Site V}
    {chance after : Chance}
    (succeeded : (replaceAll tables ignore (earlier ++ site :: later)).outcome chance =
      (.ok (), after)) :
    ∃ fragment, (site.replacement tables ignore).outcome
        (chance.skip (earlier.countP (·.draws tables ignore))) =
      (.ok fragment, chance.skip ((earlier ++ [site]).countP (·.draws tables ignore))) := by
  rw [replaceAll_append] at succeeded
  rcases Drawing.outcome_bind_eq_ok succeeded with ⟨⟨⟩, between, before, continued⟩
  rcases Drawing.outcome_bind_eq_ok continued with ⟨fragment, next, replaced, -⟩
  have drawn := replacement_draws replaced
  rw [chance_of_replaceAll before] at replaced drawn
  refine ⟨fragment, replaced.trans ?_⟩
  rw [drawn, Chance.skip_skip, List.countP_append, List.countP_cons, List.countP_nil, Nat.zero_add]

end Site

/-- A rewriting asks chance at the sites, in their order, and nowhere else. -/
theorem Forest.rewrite_bind (tables : Nat → RuleTable V) (ignore : List Symbol)
    (enclosing : List (Level V)) (left : List (Element V)) (step : Nat) (forest : Forest V) :
    (do
      let _ ← Forest.rewrite tables ignore enclosing left step forest
      pure ()) = Site.replaceAll tables ignore (Forest.sites enclosing left step forest) := by
  induction forest using Forest.induction generalizing enclosing left step with
  | nil => simp [Forest.rewrite, Site.replaceAll]
  | leaf first rest inRest => simp [Forest.rewrite, Element.rewrite, Site.replaceAll, ← inRest]
  | branch contents rest inContents inRest =>
      simp [Forest.rewrite, Element.rewrite, ← inContents, ← inRest]

theorem Forest.replaceAll_of_nextGeneration {tables : Nat → RuleTable V} {ignore : List Symbol}
    {forest written : Forest V} {chance after : Chance}
    (succeeded : (forest.nextGeneration tables ignore).outcome chance = (.ok written, after)) :
    (Site.replaceAll tables ignore forest.allSites).outcome chance = (.ok (), after) := by
  unfold allSites
  rw [← Forest.rewrite_bind, Drawing.outcome_bind]
  unfold nextGeneration at succeeded
  rw [succeeded]
  rfl

/-! ## Sites as stops of the walk -/

namespace Place

/-- A walk that has come to a level with some elements ahead comes to the end of
them, on the same level. -/
theorem after_forest {whole : Forest V} {steps : Nat} {level : Level V}
    {enclosing : List (Level V)} (ahead : Forest V) (same : level.right = ahead)
    (reached : after whole steps = some ⟨level, enclosing⟩) :
    ∃ ended, after whole (steps + Forest.size ahead) = some ⟨ended, enclosing⟩ ∧
      ended.right = [] ∧ ended.passed = ahead.reverse ++ level.passed := by
  induction ahead using Forest.induction generalizing steps level enclosing with
  | nil => exact ⟨level, reached, same, rfl⟩
  | leaf first rest inRest =>
      rcases level with ⟨left, focus, right⟩
      subst same
      have stepped := after_succ reached (.leaf left focus first rest enclosing)
      rcases inRest rfl stepped with ⟨ended, reachedEnd, atEnd, passed⟩
      refine ⟨ended, ?_, atEnd, ?_⟩
      · simp [← reachedEnd, Nat.add_assoc]
      · rw [passed]
        simp [Level.passed]
  | branch contents rest inContents inRest =>
      rcases level with ⟨left, focus, right⟩
      subst same
      have entered := after_succ reached (.enter left focus contents rest enclosing)
      rcases inContents rfl entered with ⟨inner, reachedInner, atInnerEnd, -⟩
      rcases inner with ⟨innerLeft, innerFocus, innerRight⟩
      subst atInnerEnd
      have returned := after_succ reachedInner (.exit innerLeft innerFocus _ enclosing)
      rcases inRest rfl returned with ⟨ended, reachedEnd, atEnd, passed⟩
      refine ⟨ended, ?_, atEnd, ?_⟩
      · rw [← reachedEnd, Forest.size, Element.size]
        congr 1
        omega
      · rw [passed]
        simp [Level.passed]

/-- The site of a leaf is where the walk stands when it has just met the leaf. -/
theorem after_of_mem_sites {whole : Forest V} {steps : Nat} {level : Level V}
    {enclosing : List (Level V)} (ahead : Forest V) (same : level.right = ahead)
    (reached : after whole steps = some ⟨level, enclosing⟩) {site : Site V}
    (member : site ∈ Forest.sites enclosing level.passed steps ahead) :
    after whole (site.step + 1) = some site.place := by
  induction ahead using Forest.induction generalizing steps level enclosing with
  | nil => cases member
  | leaf first rest inRest =>
      rcases level with ⟨left, focus, right⟩
      subst same
      have stepped := after_succ reached (.leaf left focus first rest enclosing)
      rw [Forest.sites, Element.sites] at member
      rcases List.mem_append.mp member with atFirst | inside
      · rw [List.mem_singleton.mp atFirst]
        exact stepped
      · exact inRest rfl stepped inside
  | branch contents rest inContents inRest =>
      rcases level with ⟨left, focus, right⟩
      subst same
      have entered := after_succ reached (.enter left focus contents rest enclosing)
      rw [Forest.sites, Element.sites] at member
      rcases List.mem_append.mp member with inside | beyond
      · exact inContents rfl entered inside
      · rcases after_forest contents rfl entered with ⟨inner, reachedInner, atInnerEnd, -⟩
        rcases inner with ⟨innerLeft, innerFocus, innerRight⟩
        subst atInnerEnd
        have returned : after whole (steps + (Element.branch contents).size) =
            some ⟨⟨focus.toList ++ left, some (.branch contents), rest⟩, enclosing⟩ := by
          rw [← after_succ reachedInner (.exit innerLeft innerFocus _ enclosing), Element.size]
          congr 1
          omega
        exact inRest rfl returned beyond

end Place

theorem Forest.after_of_mem_allSites {forest : Forest V} {site : Site V}
    (member : site ∈ forest.allSites) : Place.after forest (site.step + 1) = some site.place :=
  have reached : Place.after forest 0 = some ⟨.start forest, []⟩ := rfl
  Place.after_of_mem_sites forest rfl reached member

example (first second : Module V) :
    (Forest.allSites [.leaf first, .branch [.branch [], .leaf second]]).map (·.step) = [0, 4] := rfl

end LSystem
