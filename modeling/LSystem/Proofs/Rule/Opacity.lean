import LSystem.Proofs.Cursor.Standing
import LSystem.Proofs.Rule.Sight

namespace LSystem

/-!
# Opaque branches

Only a lookup that goes down looks into a branch; the others step over it or climb out of
it.  Main statement: whatever other forests are put into branches of a forest, at a module
that is in none of these branches a rule is matched as before, unless it looks for a child.
-/

variable {V : Type}

/-! ## Replacing the contents of branches -/

section Refilling

variable (refill : List Nat → Option (Forest V))

mutual

/-- An element at a path.  If it is a branch it may get other contents, and otherwise the
branches in it may. -/
def Element.refilled (path : List Nat) : Element V → Element V
  | .leaf letter => .leaf letter
  | .branch contents => .branch ((refill path).getD (Forest.refilledFrom path 0 contents))

/-- The elements at a path from a number onwards, with other contents in the branches that
are to be refilled. -/
def Forest.refilledFrom (path : List Nat) (number : Nat) : Forest V → Forest V
  | [] => []
  | element :: rest =>
      element.refilled (path ++ [number]) :: Forest.refilledFrom path (number + 1) rest

end

/-- A forest in which branches have got other contents. -/
def Forest.refilled (forest : Forest V) : Forest V := Forest.refilledFrom refill [] 0 forest

/-- The branches that hold what is at a path keep their contents. -/
def Keeps (path : List Nat) : Prop :=
  ∀ outer number, outer ++ [number] <+: path → refill (outer ++ [number]) = none

variable {refill}

theorem Keeps.of_prefix {path outer : List Nat} (keeps : Keeps refill path)
    (around : outer <+: path) : Keeps refill outer :=
  fun further number inside => keeps further number (inside.trans around)

theorem Forest.getElem?_refilledFrom (path : List Nat) (number : Nat) (contents : Forest V)
    (index : Nat) :
    (Forest.refilledFrom refill path number contents)[index]? =
      (contents[index]?).map (·.refilled refill (path ++ [number + index])) := by
  induction contents generalizing number index with
  | nil => rfl
  | cons element rest inductionHypothesis =>
      rw [Forest.refilledFrom]
      cases index with
      | zero => rfl
      | succ index =>
          rw [List.getElem?_cons_succ, List.getElem?_cons_succ, inductionHypothesis,
            Nat.add_right_comm, Nat.add_assoc]

/-- The way to a path is the same as before if the branches on it are kept. -/
theorem Forest.contentsAt?_refilled {forest contents : Forest V} {path : List Nat}
    (keeps : Keeps refill path) (reached : forest.contentsAt? path = some contents) :
    (forest.refilled refill).contentsAt? path =
      some (Forest.refilledFrom refill path 0 contents) := by
  induction path using List.reverseRecOn generalizing contents with
  | nil =>
      cases reached
      rfl
  | append_singleton path index inductionHypothesis =>
      rcases Bookmark.exists_of_contentsAt?_concat reached with ⟨outer, reachedOuter, branch⟩
      have before := inductionHypothesis (keeps.of_prefix (List.prefix_append path [index]))
        reachedOuter
      apply Bookmark.contentsAt?_concat before
      rw [Forest.getElem?_refilledFrom, branch, Nat.zero_add, Option.map_some, Element.refilled,
        keeps path index List.prefix_rfl, Option.getD_none]

/-- So a module in none of the refilled branches stays where it is. -/
theorem Forest.LeafAt.refilled {forest : Forest V} {path : List Nat} {number : Nat}
    {letter : Module V} (leaf : forest.LeafAt path number letter) (keeps : Keeps refill path) :
    (forest.refilled refill).LeafAt path number letter := by
  rcases leaf with ⟨contents, reached, here⟩
  refine ⟨_, Forest.contentsAt?_refilled keeps reached, ?_⟩
  rw [Forest.getElem?_refilledFrom, here, Option.map_some, Element.refilled]

end Refilling

/-! ## Hollow branches -/

/-- An element without what is in it. -/
def Element.hollow : Element V → Element V
  | .leaf letter => .leaf letter
  | .branch _ => .branch []

/-- Elements drawn without what is in them. -/
def Element.hollow? (element : Element V) : Option (Element V) := some element.hollow

theorem outlining_hollow (ignore : List Symbol) : Outlining (V := V) ignore Element.hollow? where
  omitted element left := by cases left
  drawn element other shown := by
    cases shown
    cases element <;> rfl

section Hollowing

variable {refill : List Nat → Option (Forest V)}

/-- Seen without what is in them, refilled branches are the ones they have been. -/
theorem Forest.map_hollow_refilledFrom (path : List Nat) (number : Nat) (contents : Forest V) :
    (Forest.refilledFrom refill path number contents).map Element.hollow =
      contents.map Element.hollow := by
  induction contents generalizing number with
  | nil => rfl
  | cons element rest inductionHypothesis =>
      rw [Forest.refilledFrom, List.map_cons, List.map_cons, inductionHypothesis]
      cases element <;> rfl

theorem Level.outlined_upTo (contents : Forest V) (count : Nat) :
    (Level.upTo contents count).outlined Element.hollow? =
      .upTo (contents.map Element.hollow) count := by
  have drawn (elements : List (Element V)) :
      elements.filterMap Element.hollow? = elements.map Element.hollow :=
    congrFun (List.filterMap_eq_map (f := Element.hollow)) elements
  cases count with
  | zero => rw [Level.upTo, Level.start, Level.outlined, drawn, drawn]; rfl
  | succ count =>
      rw [Level.upTo, Level.upTo, Level.outlined, drawn, drawn, List.map_reverse, List.map_take,
        List.map_drop, List.getElem?_map]
      cases contents[count]? <;> rfl

/-- On a level that is kept a view shows the same outline as before. -/
theorem Bookmark.View.outlined_level_refilled {forest contents : Forest V} {view : Bookmark.View}
    (keeps : Keeps refill view.path) (reached : forest.contentsAt? view.path = some contents) :
    (view.level (forest.refilled refill)).outlined Element.hollow? =
      (view.level forest).outlined Element.hollow? := by
  rw [Bookmark.View.level, Bookmark.View.level, Forest.contentsAt?_refilled keeps reached, reached,
    Option.getD_some, Option.getD_some, Level.outlined_upTo, Level.outlined_upTo,
    Forest.map_hollow_refilledFrom]

/-- So does a whole place, if all its levels are kept. -/
theorem Bookmark.outlined_placeOf_refilled {forest : Forest V} {views : List Bookmark.View}
    (along : ∀ view ∈ views, Keeps refill view.path ∧
      ∃ contents, forest.contentsAt? view.path = some contents) :
    (Bookmark.placeOf (forest.refilled refill) views).outlined Element.hollow? =
      (Bookmark.placeOf forest views).outlined Element.hollow? := by
  have onLevel : ∀ view ∈ views, (view.level (forest.refilled refill)).outlined Element.hollow? =
      (view.level forest).outlined Element.hollow? := by
    intro view member
    rcases along view member with ⟨keeps, contents, reached⟩
    exact view.outlined_level_refilled keeps reached
  cases views with
  | nil =>
      have whole : (Level.upTo (forest.refilled refill) 0).outlined Element.hollow? =
          (Level.upTo forest 0).outlined Element.hollow? := by
        rw [Level.outlined_upTo, Level.outlined_upTo, Forest.refilled,
          Forest.map_hollow_refilledFrom]
      exact congrArg (fun level => (⟨level, []⟩ : Place V)) whole
  | cons view around =>
      have outside : (around.map (·.level (forest.refilled refill))).map
          (·.outlined Element.hollow?) =
            (around.map (·.level forest)).map (·.outlined Element.hollow?) := by
        rw [List.map_map, List.map_map]
        exact List.map_congr_left fun outer member => onLevel outer (List.mem_cons_of_mem _ member)
      rw [Bookmark.placeOf, Bookmark.placeOf, Place.outlined, Place.outlined,
        onLevel view List.mem_cons_self, outside]

end Hollowing

/-! ## Matching at a module -/

namespace Bookmark

/-- Some probes have led to where the walk has passed an element last. -/
def StandsAt (forest : Forest V) (ignore : List Symbol) (history : List (Probe V))
    (path : List Nat) (number : Nat) : Prop :=
  ∃ answers mark, start.probeAll forest ignore history = some (answers, mark) ∧
    mark.passed? = some ⟨path, number⟩

/-- A walk comes to a module and visits it with its last step. -/
def ComesTo (forest : Forest V) (ignore : List Symbol) (path : List Nat) (number : Nat)
    (letter : Module V) : Prop :=
  ∃ steps told mark,
    start.probeAll forest ignore (List.replicate (steps + 1) (.ask .next)) =
      some (told ++ [.replied (.visited (.leaf letter))], mark) ∧
    mark.passed? = some ⟨path, number⟩

/-- Calls are probes as well. -/
theorem probeAll_ask {forest : Forest V} {ignore : List Symbol} {calls : List Cursor.Call}
    {mark after : Bookmark} {replies : List (Cursor.Reply V)}
    (made : mark.performAll forest ignore calls = some (replies, after)) :
    mark.probeAll forest ignore (calls.map .ask) = some (replies.map .replied, after) := by
  induction calls generalizing mark replies with
  | nil =>
      cases made
      rfl
  | cons call rest inductionHypothesis =>
      simp only [performAll, Option.bind_eq_bind, Option.bind_eq_some_iff, Option.some.injEq,
        Prod.mk.injEq] at made
      rcases made with ⟨⟨reply, moved⟩, performed, ⟨later, _⟩, onward, rfl, rfl⟩
      have asked : mark.probe forest ignore (.ask call) = some (.replied reply, moved) := by
        simp only [probe, Probe.inquiry, Bookmark.pursue, performed, Option.bind_eq_bind,
          Option.bind_some]
      simp only [List.map_cons, probeAll, asked, inductionHypothesis onward, Option.bind_eq_bind,
        Option.bind_some]

section Standing

variable {forest : Forest V} {ignore : List Symbol} {history : List (Probe V)}
  {path : List Nat} {number : Nat}

/-- A rule is matched at the place that the element passed last has. -/
theorem StandsAt.answered (stands : StandsAt forest ignore history path number)
    (rule : CompiledRule V) (letter : Module V) :
    Answered forest ignore history [.attempt rule letter]
      [.matched (rule.matchAt ignore letter (.on (placeAt forest path number))).1] := by
  rcases stands with ⟨answers, mark, made, passed⟩
  rcases (wellFormed_start forest).probeAll ignore history with ⟨_, _, madeToo, fits, same⟩
  cases made.symm.trans madeToo
  have renewed : Renewed forest ignore history [.attempt rule letter] :=
    .byAttempt history rule letter []
  have answered := renewed.answersAfter_eq
  rw [cursor_start] at same
  rw [same, fits.position_along passed] at answered
  refine ⟨answered, ?_⟩
  rw [Bookmark.answersAfter_eq, answered]
  rfl

/-- There is a level for every view on the way there. -/
theorem StandsAt.exists_level (stands : StandsAt forest ignore history path number)
    {view : View} (member : view ∈ viewsAlong (path ++ [number])) :
    view.path <+: path ∧ ∃ contents, forest.contentsAt? view.path = some contents := by
  rcases stands with ⟨answers, mark, made, passed⟩
  rcases (wellFormed_start forest).probeAll ignore history with ⟨_, _, madeToo, fits, -⟩
  cases made.symm.trans madeToo
  exact fits.exists_level_along passed member

/-- A walk comes to every module. -/
theorem comesTo_of_leafAt {letter : Module V} (leaf : forest.LeafAt path number letter)
    (ignore : List Symbol) : ComesTo forest ignore path number letter := by
  rcases leaf with ⟨contents, reached, here⟩
  rcases exists_visit ignore reached here with ⟨steps, told, mark, made, passed⟩
  refine ⟨steps, told.map .replied, mark, ?_, passed⟩
  have asked := probeAll_ask made
  rwa [List.map_replicate, List.map_append, List.map_singleton] at asked

end Standing

end Bookmark

/-- A rule is matched with the same result at a module of a forest and at the same module in
the same place of another forest. -/
structure MatchedAlikeAt (ignore : List Symbol) (rule : CompiledRule V) (forest other : Forest V)
    (path : List Nat) (number : Nat) (letter : Module V) : Prop where
  stays : other.LeafAt path number letter
  visited : Bookmark.ComesTo forest ignore path number letter
  visitedToo : Bookmark.ComesTo other ignore path number letter
  /-- It does not matter what has been done on the way. -/
  matched : ∃ arguments, ∀ history histories : List (Probe V),
    Bookmark.StandsAt forest ignore history path number →
    Bookmark.StandsAt other ignore histories path number →
      Answered forest ignore history [.attempt rule letter] [.matched arguments] ∧
      Answered other ignore histories [.attempt rule letter] [.matched arguments]

/-- Any branches of a forest may be given any other contents: at a module outside of them every
rule without a child in its context is matched as before. -/
theorem matchedAlikeAt_refilled (forest : Forest V) (ignore : List Symbol) (rule : CompiledRule V)
    (refill : List Nat → Option (Forest V)) (path : List Nat) (number : Nat) (letter : Module V)
    (leaf : forest.LeafAt path number letter) (keeps : Keeps refill path)
    (noChild : ∀ predecessor ∈ rule.context, predecessor.direction.axis ≠ .child) :
    MatchedAlikeAt ignore rule forest (forest.refilled refill) path number letter := by
  have stays := leaf.refilled keeps
  have blind : ∀ predecessor ∈ rule.context, predecessor.direction.axis = .child →
      GoesInward (V := V) Element.hollow? :=
    fun predecessor member child => absurd child (noChild predecessor member)
  refine ⟨stays, Bookmark.comesTo_of_leafAt leaf ignore, Bookmark.comesTo_of_leafAt stays ignore,
    (rule.matchAt ignore letter (.on (Bookmark.placeAt forest path number))).1, ?_⟩
  intro history histories stands standsToo
  have along : ∀ view ∈ (Bookmark.viewsAlong (path ++ [number])).reverse,
      Keeps refill view.path ∧ ∃ contents, forest.contentsAt? view.path = some contents := by
    intro view member
    rcases stands.exists_level (List.mem_reverse.mp member) with ⟨around, level⟩
    exact ⟨keeps.of_prefix around, level⟩
  have same : (rule.matchAt ignore letter
        (.on (Bookmark.placeAt (forest.refilled refill) path number))).1 =
      (rule.matchAt ignore letter (.on (Bookmark.placeAt forest path number))).1 := by
    rw [← (outlining_hollow ignore).matchAt_outlined rule blind, Bookmark.placeAt,
      Bookmark.outlined_placeOf_refilled along, (outlining_hollow ignore).matchAt_outlined rule blind]
    rfl
  refine ⟨stands.answered rule letter, ?_⟩
  rw [← same]
  exact standsToo.answered rule letter

namespace Fork

/-- A segment with two shoots. -/
def forest : Forest Float := [Catalog.stem, .branch [Catalog.stem], .branch [Catalog.stem]]

/-- Lets the first shoot grow. -/
def refill (path : List Nat) : Option (Forest Float) :=
  if path = [1] then some [Catalog.stem, .branch [Catalog.stem]] else none

theorem keeps_refill : Keeps refill [2] := by
  intro outer number inside
  have short := inside.length_le
  rw [List.length_append, List.length_singleton, List.length_singleton] at short
  have outermost : outer = [] := List.length_eq_zero_iff.mp (by omega)
  subst outermost
  cases inside.eq_of_length rfl
  rfl

/-- The second shoot looks for the segment that it hangs off, and does not see what becomes
of the first one. -/
theorem matchedAlikeAt_secondShoot :
    forest.LeafAt [2] 0 (.plain ⟨"F"⟩) ∧ Keeps refill [2] ∧
      (∀ predecessor ∈ Shoot.rooted.context, predecessor.direction.axis ≠ .child) ∧
      MatchedAlikeAt [] Shoot.rooted forest (forest.refilled refill) [2] 0 (.plain ⟨"F"⟩) := by
  have leaf : forest.LeafAt [2] 0 (.plain ⟨"F"⟩) := ⟨_, rfl, rfl⟩
  have noChild : ∀ predecessor ∈ Shoot.rooted.context, predecessor.direction.axis ≠ .child := by
    intro predecessor member
    cases List.mem_singleton.mp member
    decide
  exact ⟨leaf, keeps_refill, noChild,
    matchedAlikeAt_refilled forest [] Shoot.rooted refill [2] 0 (.plain ⟨"F"⟩) leaf keeps_refill
      noChild⟩

example : forest.refilled refill =
    [Catalog.stem, .branch [Catalog.stem, .branch [Catalog.stem]], .branch [Catalog.stem]] := rfl

end Fork
end LSystem
