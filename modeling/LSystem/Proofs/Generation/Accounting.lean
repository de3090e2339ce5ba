import LSystem.Proofs.Generation.Rewriting
import LSystem.Proofs.Generation.Tracking

namespace LSystem

/-!
# The books of a pass

A pass counts as it goes, each counter in another kind of step.  Its books are what the
counters are about: the sites that it has come by, and the productions that it has
written on the way.  Main statements: the books of a pass that starts are in order,
every step keeps them in order, and when nothing is left they add up to what can be
read off the old forest.
-/

variable {V : Type}

/-! ## Branches -/

mutual

/-- The number of branches of one element, at any depth. -/
def Element.branches : Element V → Nat
  | .leaf _ => 0
  | .branch contents => Forest.branches contents + 1

/-- The number of branches of a forest, at any depth. -/
def Forest.branches : Forest V → Nat
  | [] => 0
  | element :: rest => element.branches + Forest.branches rest

end

attribute [simp] Element.branches Forest.branches

theorem Forest.size_eq (forest : Forest V) :
    Forest.size forest = (Forest.leaves forest).length + 2 * Forest.branches forest := by
  induction forest using Forest.induction with
  | nil => rfl
  | leaf first rest inRest =>
      simp [inRest]
      omega
  | branch contents rest inContents inRest =>
      simp [inContents, inRest]
      omega

/-! ## Sites that have been passed -/

namespace Site

variable (tables : Nat → RuleTable V) (ignore : List Symbol)

/-- Whether some rule of the table in force applies to the leaf. -/
def hasRule (site : Site V) : Bool :=
  (((tables site.step).bucket? site.letter.signature).getD []).any fun rule =>
    (rule.matchAt ignore site.letter (.on site.place)).1.isSome

/-- Whether the leaf gives way to a production. -/
def isReplaced (site : Site V) : Bool := !site.letter.isInert && site.hasRule tables ignore

/-- Whether the leaf is handed on as it is. -/
def isCopied (site : Site V) : Bool := !site.letter.isInert && !site.hasRule tables ignore

/-- The production that the leaf gives way to, if it does. -/
def production (site : Site V) : Drawing (Option (Forest V)) :=
  if site.letter.isInert then pure none
  else ExceptT.mk fun chance =>
    let derivation := (tables site.step).derive ignore site.letter (.on site.place) chance
    (derivation.outcome, derivation.chance)

/-- The productions at sites one after another. -/
def productions : List (Site V) → Drawing (List (Forest V))
  | [] => pure []
  | site :: rest => do
      let made ← site.production tables ignore
      let following ← productions rest
      pure (made.toList ++ following)

variable {tables : Nat → RuleTable V} {ignore : List Symbol}

theorem productions_append (first second : List (Site V)) :
    productions tables ignore (first ++ second) = (do
      let made ← productions tables ignore first
      let following ← productions tables ignore second
      pure (made ++ following)) := by
  induction first with
  | nil => simp [productions]
  | cons site rest inductionHypothesis =>
      simp only [List.cons_append, productions, inductionHypothesis, bind_assoc, pure_bind,
        List.append_assoc]

/-- One more site adds its production, if there is one. -/
theorem outcome_productions_concat {sites : List (Site V)} {site : Site V}
    {made : List (Forest V)} {more : Option (Forest V)} {begun chance after : Chance}
    (before : (productions tables ignore sites).outcome begun = (.ok made, chance))
    (here : (site.production tables ignore).outcome chance = (.ok more, after)) :
    (productions tables ignore (sites ++ [site])).outcome begun =
      (.ok (made ++ more.toList), after) := by
  rw [productions_append, Drawing.outcome_bind, before]
  simp [productions, here]

theorem outcome_production (site : Site V) (chance : Chance) :
    (site.production tables ignore).outcome chance =
      if site.letter.isInert then (.ok none, chance)
      else
        (((tables site.step).derive ignore site.letter (.on site.place) chance).outcome,
          ((tables site.step).derive ignore site.letter (.on site.place) chance).chance) := by
  unfold production
  split <;> rfl

theorem outcome_production_of_alive (site : Site V) {chance : Chance}
    {made : Option (Forest V)} (alive : site.letter.isInert = false)
    (derived : ((tables site.step).derive ignore site.letter (.on site.place) chance).outcome =
      .ok made) :
    (site.production tables ignore).outcome chance =
      (.ok made,
        ((tables site.step).derive ignore site.letter (.on site.place) chance).chance) := by
  rw [outcome_production, if_neg (Bool.eq_false_iff.mp alive), derived]

/-- A derivation makes a production exactly where a rule applies. -/
theorem isSome_of_derive (site : Site V) {chance : Chance} {made : Option (Forest V)}
    (derived : ((tables site.step).derive ignore site.letter (.on site.place) chance).outcome =
      .ok made) : made.isSome = site.hasRule tables ignore := by
  have asked : ((tables site.step).firing? ignore site.letter site.place).isSome =
      site.hasRule tables ignore := by
    unfold RuleTable.firing? hasRule
    rw [List.isSome_findSome?]
    simp only [Option.isSome_map]
  have both := congrArg Prod.fst
    ((tables site.step).derive_eq_firing? ignore site.letter (.on site.place) chance)
  rw [derived, show (Cursor.on site.place).position = site.place from rfl] at both
  rw [← asked]
  cases fires : (tables site.step).firing? ignore site.letter site.place with
  | none =>
      rw [fires] at both
      cases both
      rfl
  | some firing =>
      rw [fires] at both
      dsimp only at both
      rcases produced : (firing.1.produce firing.2 chance).1 with error | fragment
      · rw [produced] at both
        cases both
      · rw [produced] at both
        cases both
        rfl

/-- Every leaf is replaced, copied or dropped, and only one of these. -/
theorem countP_fates (sites : List (Site V)) :
    sites.countP (·.isReplaced tables ignore) + sites.countP (·.isCopied tables ignore) +
      sites.countP (·.letter.isInert) = sites.length := by
  induction sites with
  | nil => rfl
  | cons site rest inductionHypothesis =>
      have one : [site].countP (·.isReplaced tables ignore) +
          [site].countP (·.isCopied tables ignore) + [site].countP (·.letter.isInert) = 1 := by
        cases inert : site.letter.isInert with
        | true => simp [isReplaced, isCopied, inert]
        | false => cases ruled : site.hasRule tables ignore <;> simp [isReplaced, isCopied, *]
      rw [← List.singleton_append, List.countP_append, List.countP_append, List.countP_append,
        List.length_append, List.length_singleton]
      omega

theorem hasRule_congr {others : Nat → RuleTable V} {site : Site V}
    (same : others site.step = tables site.step) :
    site.hasRule others ignore = site.hasRule tables ignore := by
  rw [hasRule, hasRule, same]

/-- Only the tables of the steps that meet the sites matter. -/
theorem productions_congr {others : Nat → RuleTable V} {sites : List (Site V)}
    (same : ∀ site ∈ sites, others site.step = tables site.step) :
    productions others ignore sites = productions tables ignore sites := by
  induction sites with
  | nil => rfl
  | cons site rest inductionHypothesis =>
      have first : site.production others ignore = site.production tables ignore := by
        rw [production, production, same site List.mem_cons_self]
      rw [productions, productions, first,
        inductionHypothesis fun other member => same other (List.mem_cons_of_mem site member)]

end Site

/-! ## Sites to come -/

namespace Place

/-- The sites on the levels around a level that has just come to its end. -/
def sitesAround : List (Level V) → Nat → List (Site V)
  | [], _ => []
  | outer :: around, step =>
      Forest.sites around outer.passed (step + 1) outer.right ++
        sitesAround around (step + 1 + Forest.size outer.right)

/-- The sites that a walk which is at a place after a number of steps is still to meet. -/
def sitesAhead (step : Nat) (place : Place V) : List (Site V) :=
  Forest.sites place.enclosing place.level.passed step place.level.right ++
    sitesAround place.enclosing (step + Forest.size place.level.right)

@[simp]
theorem sitesAhead_root (forest : Forest V) : (root forest).sitesAhead 0 = forest.allSites :=
  List.append_nil _

/-- A leaf that comes into focus is the first of the sites ahead. -/
theorem Step.sitesAhead_leaf {place next : Place V} {letter : Module V}
    (moved : Step place (.leaf letter) next) (step : Nat) :
    place.sitesAhead step = ⟨step, letter, next⟩ :: next.sitesAhead (step + 1) := by
  cases moved with
  | leaf left focus letter right enclosing =>
      simp [sitesAhead, Level.passed, Nat.add_assoc]

theorem Step.enclosing_leaf {place next : Place V} {letter : Module V}
    (moved : Step place (.leaf letter) next) : next.enclosing = place.enclosing := by
  cases moved
  rfl

theorem Step.sitesAhead_enter {place next : Place V} (moved : Step place .enter next)
    (step : Nat) : place.sitesAhead step = next.sitesAhead (step + 1) := by
  cases moved with
  | enter left focus contents right enclosing =>
      have between : step + (Forest.size contents + 2) = step + 1 + Forest.size contents + 1 := by
        omega
      simp [sitesAhead, sitesAround, Level.passed, Level.start, between,
        ← Nat.add_assoc step (Forest.size contents + 2)]

theorem Step.sitesAhead_exit {place next : Place V} (moved : Step place .exit next)
    (step : Nat) : place.sitesAhead step = next.sitesAhead (step + 1) := by
  cases moved with
  | exit left focus outer around =>
      simp [sitesAhead, sitesAround]

theorem sitesAhead_of_ahead_eq_nil {place : Place V} (exhausted : place.ahead = [])
    (step : Nat) : place.sitesAhead step = [] := by
  rcases of_ahead_eq_nil exhausted with ⟨atEnd, outermost⟩
  simp [sitesAhead, atEnd, outermost, sitesAround]

end Place

/-! ## Books -/

/-- The books of a pass over a forest that was begun with one source of chance and has
got to another. -/
structure Pass.Books (tables : Nat → RuleTable V) (ignore : List Symbol) (forest : Forest V)
    (begun : Chance) (pass : Pass V) (chance : Chance) (behind : List (Site V))
    (written : List (Forest V)) : Prop where
  sites : forest.allSites = behind ++ pass.cursor.position.sitesAhead pass.tally.visited
  steps : ∀ site ∈ behind, site.step < pass.tally.visited
  written_eq : (Site.productions tables ignore behind).outcome begun = (.ok written, chance)
  dropped : pass.tally.dropped = behind.countP (·.letter.isInert)
  replaced : pass.tally.replaced = behind.countP (·.isReplaced tables ignore)
  copied : pass.tally.copied = behind.countP (·.isCopied tables ignore)
  productions : pass.tally.replaced = written.length
  /-- A branch is counted with both of its ends when it is closed.  Of one that is still
  open a single step has been taken, and so of each leaf. -/
  balance : pass.tally.moduleCount + behind.length + pass.cursor.position.enclosing.length =
    pass.tally.visited + pass.tally.copied + (written.map Forest.size).sum

/-- The books of a pass are in order. -/
def Pass.Accounts (tables : Nat → RuleTable V) (ignore : List Symbol) (forest : Forest V)
    (begun : Chance) (pass : Pass V) (chance : Chance) : Prop :=
  ∃ behind written, pass.Books tables ignore forest begun chance behind written

namespace Pass

variable {tables : Nat → RuleTable V} {ignore : List Symbol} {forest : Forest V}
  {begun chance after : Chance} {pass next : Pass V}

theorem accounts_start (tables : Nat → RuleTable V) (ignore : List Symbol) (forest : Forest V)
    (chance : Chance) : (start forest).Accounts tables ignore forest chance chance :=
  ⟨[], [], (Place.sitesAhead_root forest).symm, nofun, rfl, rfl, rfl, rfl, rfl, rfl⟩

/-- The tables of steps that have not been taken are not in the books yet. -/
theorem Accounts.of_tables {others : Nat → RuleTable V}
    (accounts : pass.Accounts tables ignore forest begun chance)
    (same : ∀ step, step < pass.tally.visited → others step = tables step) :
    pass.Accounts others ignore forest begun chance := by
  rcases accounts with ⟨behind, written, books⟩
  have agree (site : Site V) (member : site ∈ behind) : others site.step = tables site.step :=
    same site.step (books.steps site member)
  refine ⟨behind, written, { books with written_eq := ?_, replaced := ?_, copied := ?_ }⟩
  · rw [Site.productions_congr agree, books.written_eq]
  · rw [books.replaced]
    apply List.countP_congr
    intro site member
    rw [Site.isReplaced, Site.isReplaced, Site.hasRule_congr (agree site member)]
  · rw [books.copied]
    apply List.countP_congr
    intro site member
    rw [Site.isCopied, Site.isCopied, Site.hasRule_congr (agree site member)]

/-- A leaf that the walk comes to is entered in the books with what has become of it. -/
theorem Books.concat {behind : List (Site V)} {written : List (Forest V)} {site : Site V}
    {more : Option (Forest V)}
    (books : pass.Books tables ignore forest begun chance behind written)
    (met : pass.cursor.position.sitesAhead pass.tally.visited =
      site :: next.cursor.position.sitesAhead next.tally.visited)
    (now : site.step = pass.tally.visited) (later : next.tally.visited = pass.tally.visited + 1)
    (here : (site.production tables ignore).outcome chance = (.ok more, after))
    (dropped : next.tally.dropped = pass.tally.dropped + [site].countP (·.letter.isInert))
    (replaced : next.tally.replaced =
      pass.tally.replaced + [site].countP (·.isReplaced tables ignore))
    (copied : next.tally.copied = pass.tally.copied + [site].countP (·.isCopied tables ignore))
    (produced : [site].countP (·.isReplaced tables ignore) = more.toList.length)
    (balance : next.tally.moduleCount + next.cursor.position.enclosing.length +
        pass.tally.copied =
      pass.tally.moduleCount + pass.cursor.position.enclosing.length + next.tally.copied +
        (more.toList.map Forest.size).sum) :
    next.Books tables ignore forest begun after (behind ++ [site]) (written ++ more.toList) where
  sites := by rw [books.sites, met, List.append_assoc, List.singleton_append]
  steps other member := by
    rcases List.mem_append.mp member with before | here
    · have earlier := books.steps other before
      omega
    · rw [List.mem_singleton.mp here]
      omega
  written_eq := Site.outcome_productions_concat books.written_eq here
  dropped := by rw [dropped, books.dropped, List.countP_append]
  replaced := by rw [replaced, books.replaced, List.countP_append]
  copied := by rw [copied, books.copied, List.countP_append]
  productions := by rw [replaced, produced, books.productions, List.length_append]
  balance := by
    have before := books.balance
    rw [List.length_append, List.length_singleton, List.map_append, List.sum_append]
    omega

theorem Step.accounts (step : Step (tables pass.tally.visited) ignore pass chance next after)
    (accounts : pass.Accounts tables ignore forest begun chance) :
    next.Accounts tables ignore forest begun after := by
  rcases accounts with ⟨behind, written, books⟩
  cases step with
  | enter moved =>
      refine ⟨behind, written, { books with sites := ?_, steps := ?_, balance := ?_ }⟩
      · rw [books.sites, moved.sitesAhead_enter]
        rfl
      · intro site member
        exact Nat.lt_succ_of_lt (books.steps site member)
      · have before := books.balance
        cases moved
        simp only [Cursor.on, PassTally.visit, List.length_cons] at before ⊢
        omega
  | exit moved =>
      refine ⟨behind, written, { books with sites := ?_, steps := ?_, balance := ?_ }⟩
      · rw [books.sites, moved.sitesAhead_exit]
        rfl
      · intro site member
        exact Nat.lt_succ_of_lt (books.steps site member)
      · have before := books.balance
        cases moved
        simp only [Cursor.on, PassTally.visit, PassTally.close, List.length_cons] at before ⊢
        omega
  | @drop place reached letter moved inert context draft tally chance =>
      let site : Site V := ⟨tally.visited, letter, reached⟩
      have here : (site.production tables ignore).outcome chance = (.ok none, chance) := by
        rw [Site.outcome_production]
        exact if_pos inert
      refine ⟨_, _, books.concat ?_ rfl rfl here ?_ ?_ ?_ ?_ ?_⟩
      · exact moved.sitesAhead_leaf tally.visited
      · simp [PassTally.visit, PassTally.drop, site, inert]
      · simp [PassTally.visit, PassTally.drop, Site.isReplaced, site, inert]
      · simp [PassTally.visit, PassTally.drop, Site.isCopied, site, inert]
      · simp [Site.isReplaced, site, inert]
      · simp only [Cursor.on, moved.enclosing_leaf, PassTally.visit, PassTally.drop,
          Option.toList_none, List.map_nil, List.sum_nil]
        omega
  | @replace place reached letter moved alive chance replacement derived context draft tally =>
      let site : Site V := ⟨tally.visited, letter, reached⟩
      have here := site.outcome_production_of_alive alive derived
      have ruled : site.hasRule tables ignore = true := (site.isSome_of_derive derived).symm
      have stays := (tables tally.visited).position_derive ignore letter (.on reached) chance
      have level := (congrArg Place.enclosing stays).trans moved.enclosing_leaf
      refine ⟨_, _, books.concat ?_ rfl rfl here ?_ ?_ ?_ ?_ ?_⟩
      · rw [stays]
        exact moved.sitesAhead_leaf tally.visited
      · simp [PassTally.visit, PassTally.replace, site, alive]
      · simp [PassTally.visit, PassTally.replace, Site.isReplaced, site, alive, ruled]
      · simp [PassTally.visit, PassTally.replace, Site.isCopied, ruled]
      · simp [Site.isReplaced, site, alive, ruled]
      · simp only [level, PassTally.visit, PassTally.replace,
          Option.toList_some, List.map_singleton, List.sum_singleton]
        omega
  | @copy place reached letter moved alive chance derived context draft tally =>
      let site : Site V := ⟨tally.visited, letter, reached⟩
      have here := site.outcome_production_of_alive alive derived
      have unruled : site.hasRule tables ignore = false := (site.isSome_of_derive derived).symm
      have stays := (tables tally.visited).position_derive ignore letter (.on reached) chance
      have level := (congrArg Place.enclosing stays).trans moved.enclosing_leaf
      refine ⟨_, _, books.concat ?_ rfl rfl here ?_ ?_ ?_ ?_ ?_⟩
      · rw [stays]
        exact moved.sitesAhead_leaf tally.visited
      · simp [PassTally.visit, PassTally.copy, site, alive]
      · simp [PassTally.visit, PassTally.copy, Site.isReplaced, unruled]
      · simp [PassTally.visit, PassTally.copy, Site.isCopied, site, alive, unruled]
      · simp [Site.isReplaced, unruled]
      · simp only [level, PassTally.visit, PassTally.copy,
          Option.toList_none, List.map_nil, List.sum_nil]
        omega

end Pass

/-! ## The sum -/

/-- How the counters of a completed pass over a forest add up. -/
structure PassTally.Balances (tables : Nat → RuleTable V) (ignore : List Symbol)
    (forest written : Forest V) (chance : Chance) (tally : PassTally) : Prop where
  visited : tally.visited = Forest.size forest
  visited_eq : tally.visited = (Forest.leaves forest).length + 2 * Forest.branches forest
  total : tally.replaced + tally.copied + tally.dropped = (Forest.leaves forest).length
  /-- The inert modules are dropped, and no others. -/
  dropped : tally.dropped = (Forest.leaves forest).countP (·.isInert)
  /-- Of the others those are replaced to which some rule applies where they stand. -/
  replaced : tally.replaced = forest.allSites.countP (·.isReplaced tables ignore)
  copied : tally.copied = forest.allSites.countP (·.isCopied tables ignore)
  moduleCount : tally.moduleCount = Forest.size written
  /-- What has been written is the copies, the branches and the productions of the rules
  that have fired, as far as the source of chance has got to with them. -/
  productions : ∃ begun fragments, begun.LeadsTo chance ∧
    (Site.productions tables ignore forest.allSites).outcome begun = (.ok fragments, chance) ∧
    fragments.length = tally.replaced ∧
    tally.moduleCount =
      tally.copied + 2 * Forest.branches forest + (fragments.map Forest.size).sum

theorem Pass.Accounts.balances {tables : Nat → RuleTable V} {ignore : List Symbol}
    {forest : Forest V} {begun chance : Chance} {pass : Pass V}
    (accounts : pass.Accounts tables ignore forest begun chance) (draws : begun.LeadsTo chance)
    (tracks : pass.Tracks forest) (finished : pass.hasNext = false) :
    pass.tally.Balances tables ignore forest pass.draft.forest chance := by
  rcases accounts with ⟨behind, fragments, books⟩
  have exhausted : pass.cursor.position.ahead = [] := by
    rwa [← Bool.not_eq_true, Pass.hasNext_iff, Nat.not_lt, Nat.le_zero,
      List.length_eq_zero_iff] at finished
  have all : forest.allSites = behind := by
    rw [books.sites, Place.sitesAhead_of_ahead_eq_nil exhausted, List.append_nil]
  have letters : behind.map (·.letter) = Forest.leaves forest := by
    rw [← all]
    exact Forest.letters_sites [] [] 0 forest
  have length : behind.length = (Forest.leaves forest).length := by
    rw [← letters, List.length_map]
  have visited : pass.tally.visited = Forest.size forest := by
    have total := Place.length_ahead_of_after tracks.reached
    rwa [exhausted, List.length_nil, Nat.zero_add] at total
  have balance := books.balance
  rw [(Place.of_ahead_eq_nil exhausted).2, List.length_nil] at balance
  have size := forest.size_eq
  exact {
    visited := visited
    visited_eq := by rw [visited, size]
    total := by
      rw [books.replaced, books.copied, books.dropped, ← length]
      exact Site.countP_fates behind
    dropped := by
      rw [books.dropped, ← letters, List.countP_map]
      rfl
    replaced := by rw [all, books.replaced]
    copied := by rw [all, books.copied]
    moduleCount := tracks.moduleCount_eq finished
    productions := by
      refine ⟨begun, fragments, draws, ?_, books.productions.symm, ?_⟩
      · rw [all]
        exact books.written_eq
      · omega }

end LSystem
