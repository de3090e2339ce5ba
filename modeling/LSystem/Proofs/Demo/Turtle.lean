import LSystem.Demo.Turtle
import LSystem.Proofs.Development.RenderingRun
import LSystem.Proofs.Dump.Wrapping
import LSystem.Proofs.Generation.Accounting

namespace LSystem

/-!
# Turtles on branches

A turtle that follows a walk saves its pose where a branch begins and takes it up again where
the branch ends.  As long as no module spells a bracket, the poses that it has saved before
stay below those of the branches it is in.  Main statement: it returns from every branch to
where it stood at the foot of it, and what it measures can be told from the forest.
-/

/-! ## Nesting -/

section Nesting

variable {V : Type}

mutual

/-- How many branches of one element lie inside one another. -/
def Element.nesting : Element V → Nat
  | .leaf _ => 0
  | .branch contents => Forest.nesting contents + 1

/-- How many branches of a forest lie inside one another. -/
def Forest.nesting : Forest V → Nat
  | [] => 0
  | element :: rest => max element.nesting (Forest.nesting rest)

end

attribute [simp] Element.nesting Forest.nesting

@[simp]
theorem Forest.nesting_append (first second : Forest V) :
    Forest.nesting (first ++ second) = max (Forest.nesting first) (Forest.nesting second) := by
  induction first with
  | nil => simp
  | cons element rest inductionHypothesis => simp [inductionHypothesis, Nat.max_assoc]

@[simp]
theorem Forest.nesting_eq_zero_iff (forest : Forest V) :
    Forest.nesting forest = 0 ↔ Forest.branches forest = 0 := by
  induction forest using Forest.induction with
  | nil => exact Iff.rfl
  | leaf first rest inRest => simp [inRest]
  | branch contents rest _ _ => simp

/-- Each module of a forest has a step of its own. -/
theorem Forest.mem_visits_of_mem_leaves {forest : Forest V} {letter : Module V}
    (member : letter ∈ Forest.leaves forest) : .leaf letter ∈ Forest.visits forest := by
  induction forest using Forest.induction with
  | nil => cases member
  | leaf first rest inRest =>
      rcases List.mem_append.mp member with here | further
      · rw [List.mem_singleton.mp here]
        exact List.mem_append_left _ (List.mem_singleton_self _)
      · exact List.mem_append_right _ (inRest further)
  | branch contents rest inContents inRest =>
      rcases List.mem_append.mp member with inside | further
      · apply List.mem_append_left
        exact List.mem_cons_of_mem _ (List.mem_append_left _ (inContents inside))
      · exact List.mem_append_right _ (inRest further)

/-- A branch that a walk goes through holds modules of the forest only. -/
theorem Forest.Unbracketed.of_visits {forest contents : Forest V}
    {before after : List (Visit V)} (unbracketed : forest.Unbracketed)
    (walk : Forest.visits forest = before ++ (Forest.visits contents ++ after)) :
    contents.Unbracketed := by
  intro letter member
  apply unbracketed letter
  apply mem_leaves_of_mem_visits
  rw [walk]
  exact List.mem_append_right _ (List.mem_append_left _ (mem_visits_of_mem_leaves member))

end Nesting

namespace Turtle

/-! ## Following a walk -/

/-- Where a walk takes the turtle, and what it has measured by then. -/
def follow (walk : List (Visit Float)) (turtle : Turtle) : Turtle :=
  Call.makeAll (callsOf (fun _ => actions) walk) turtle

@[simp]
theorem follow_append (first second : List (Visit Float)) (turtle : Turtle) :
    follow (first ++ second) turtle = follow second (follow first turtle) := by
  rw [follow, callsOf_append, Call.makeAll_append]
  rfl

theorem follow_cons (visit : Visit Float) (rest : List (Visit Float)) (turtle : Turtle) :
    follow (visit :: rest) turtle = follow rest (follow [visit] turtle) :=
  follow_append [visit] rest turtle

theorem follow_singleton (visit : Visit Float) (turtle : Turtle) :
    follow [visit] turtle =
      match actions.find? visit.symbol with
      | none => turtle
      | some action => action visit.arguments turtle := by
  rw [follow, callsOf_singleton, Visit.call?]
  cases actions.find? visit.symbol with
  | none => rfl
  | some action => rfl

@[simp]
theorem follow_nil (turtle : Turtle) : follow [] turtle = turtle := rfl

@[simp]
theorem follow_enter (rest : List (Visit Float)) (turtle : Turtle) :
    follow (.enter :: rest) turtle = follow rest turtle.save := follow_cons .enter rest turtle

@[simp]
theorem follow_exit (rest : List (Visit Float)) (turtle : Turtle) :
    follow (.exit :: rest) turtle = follow rest turtle.restore := follow_cons .exit rest turtle

/-- What the turtle does for a symbol. -/
theorem find?_actions (symbol : Symbol) :
    actions.find? symbol =
      if symbol = .closing then some fun _ => restore
      else if symbol = .opening then some fun _ => save
      else if symbol = ⟨"-"⟩ then some fun _ => turn (-90.0)
      else if symbol = ⟨"+"⟩ then some fun _ => turn 90.0
      else if symbol = ⟨"F"⟩ then some forward
      else none := by
  simp [actions, Actions.ofList]

/-- What the turtle keeps on its way over a forest, or part of one, and what it measures. -/
structure Crosses (forest : Forest Float) (before after : Turtle) : Prop where
  saved : after.saved = before.saved
  segments : after.segments =
    before.segments + (Forest.leaves forest).countP (·.symbol = ⟨"F"⟩)
  deepest : after.deepest =
    if Forest.nesting forest = 0 then before.deepest
    else max before.deepest (before.saved.length + Forest.nesting forest)

/-- A module that spells no bracket is drawn, or turns the turtle, or does nothing. -/
theorem crosses_leaf {letter : Module Float} (unopened : letter.symbol ≠ .opening)
    (unclosed : letter.symbol ≠ .closing) (turtle : Turtle) :
    Crosses [.leaf letter] turtle (follow [.leaf letter] turtle) := by
  rw [follow_singleton, Visit.symbol, find?_actions, if_neg unclosed, if_neg unopened]
  by_cases minus : letter.symbol = ⟨"-"⟩
  · rw [if_pos minus]
    exact ⟨rfl, by simp [minus, turn], rfl⟩
  · by_cases plus : letter.symbol = ⟨"+"⟩
    · rw [if_neg minus, if_pos plus]
      exact ⟨rfl, by simp [plus, turn], rfl⟩
    · rw [if_neg minus, if_neg plus]
      by_cases draws : letter.symbol = ⟨"F"⟩
      · rw [if_pos draws]
        exact ⟨rfl, by simp [draws, forward], rfl⟩
      · rw [if_neg draws]
        exact ⟨rfl, by simp [draws], rfl⟩

namespace Crosses

variable {before between after : Turtle}

theorem append {first second : Forest Float} (earlier : Crosses first before between)
    (later : Crosses second between after) : Crosses (first ++ second) before after where
  saved := later.saved.trans earlier.saved
  segments := by
    simp [later.segments, earlier.segments, Nat.add_assoc]
  deepest := by
    rw [later.deepest, earlier.deepest, earlier.saved, Forest.nesting_append]
    split_ifs <;> omega

/-- Behind a branch the turtle is back at the foot of it. -/
theorem restore_eq {contents : Forest Float} (inside : Crosses contents before.save after) :
    after.restore = { after with pose := before.pose, saved := before.saved } := by
  have saved : after.saved = before.pose :: before.saved := inside.saved
  rw [restore, saved]

theorem branch {contents : Forest Float} (inside : Crosses contents before.save after) :
    Crosses [.branch contents] before after.restore where
  saved := by rw [inside.restore_eq]
  segments := by
    rw [inside.restore_eq]
    simpa [save] using inside.segments
  deepest := by
    have nesting : Forest.nesting [.branch contents] = Forest.nesting contents + 1 := by simp
    have measured := inside.deepest
    have deeper : before.save.deepest = max before.deepest (before.saved.length + 1) := rfl
    have higher : before.save.saved.length = before.saved.length + 1 := rfl
    rw [inside.restore_eq, nesting, if_neg (Nat.succ_ne_zero _)]
    dsimp only
    rw [measured, deeper, higher]
    split_ifs <;> omega

end Crosses

/-- However the turtle comes to a forest, it leaves it with the poses that it had saved. -/
theorem crosses_visits {forest : Forest Float} (unbracketed : forest.Unbracketed)
    (turtle : Turtle) : Crosses forest turtle (follow (Forest.visits forest) turtle) := by
  induction forest using Forest.induction generalizing turtle with
  | nil => exact ⟨rfl, rfl, rfl⟩
  | leaf first rest inRest =>
      have here := crosses_leaf unbracketed.leaf.1 unbracketed.leaf.2 turtle
      have further := inRest unbracketed.tail (follow [.leaf first] turtle)
      exact follow_cons _ _ turtle ▸ here.append further
  | branch contents rest inContents inRest =>
      have here := (inContents unbracketed.inside turtle.save).branch
      have further := inRest unbracketed.tail
        (follow (Forest.visits contents) turtle.save).restore
      simpa using here.append further

/-! ## Saved poses -/

theorem follow_opening {visit : Visit Float} (opening : visit.symbol = .opening)
    (turtle : Turtle) : follow [visit] turtle = turtle.save := by
  rw [follow_singleton, opening]
  rfl

theorem follow_closing {visit : Visit Float} (closing : visit.symbol = .closing)
    (turtle : Turtle) : follow [visit] turtle = turtle.restore := by
  rw [follow_singleton, closing]
  rfl

theorem saved_follow_singleton {visit : Visit Float} (unopening : visit.symbol ≠ .opening)
    (unclosing : visit.symbol ≠ .closing) (turtle : Turtle) :
    (follow [visit] turtle).saved = turtle.saved := by
  cases visit with
  | enter => exact absurd rfl unopening
  | exit => exact absurd rfl unclosing
  | leaf letter => exact (crosses_leaf unopening unclosing turtle).saved

theorem length_saved_restore (turtle : Turtle) :
    turtle.restore.saved.length = turtle.saved.length - 1 := by
  rw [restore]
  split
  · next empty => rw [empty, List.length_nil]
  · next pose saved some => rw [some, List.length_cons, Nat.add_sub_cancel]

/-- Along a walk that closes no branch before opening it, there is a saved pose for each
branch that is open, besides those of the start. -/
theorem length_saved_follow {walk : List (Visit Float)} (nested : Dump.Nested walk)
    (turtle : Turtle) :
    ((follow walk turtle).saved.length : Int) = turtle.saved.length + Dump.balance walk := by
  induction walk using List.reverseRecOn with
  | nil => exact (Int.add_zero _).symm
  | append_singleton walk visit inductionHypothesis =>
      have earlier := nested.take walk.length
      rw [List.take_left] at earlier
      have whole := nested (walk ++ [visit]).length
      rw [List.take_length, Dump.balance_append, Dump.balance_singleton] at whole
      have reached := inductionHypothesis earlier
      rw [follow_append, Dump.balance_append, Dump.balance_singleton]
      by_cases opening : visit.symbol = .opening
      · rw [if_pos opening, follow_opening opening, save, List.length_cons]
        omega
      · by_cases closing : visit.symbol = .closing
        · -- The balance of the whole walk is not negative, so there is a pose to take up.
          rw [if_neg opening, if_pos closing] at whole
          rw [if_neg opening, if_pos closing, follow_closing closing, length_saved_restore]
          omega
        · rw [if_neg opening, if_neg closing, saved_follow_singleton opening closing]
          omega

/-- The end of a branch never meets with a turtle that has no pose of its own to take up. -/
theorem saved_lt_of_exit {forest : Forest Float} (unbracketed : forest.Unbracketed)
    {before after : List (Visit Float)} (walk : Forest.visits forest = before ++ .exit :: after)
    (turtle : Turtle) : turtle.saved.length < (follow before turtle).saved.length := by
  have nested := Forest.nested_visits unbracketed
  have earlier := nested.take before.length
  have closed := nested (before.length + 1)
  rw [walk, List.take_left] at earlier
  rw [walk, List.take_append, List.take_of_length_le (Nat.le_succ _), Nat.add_sub_cancel_left,
    List.take_succ_cons, List.take_zero, Dump.balance_append] at closed
  have outwards : Dump.balance [(.exit : Visit Float)] = -1 := rfl
  have reached := length_saved_follow earlier turtle
  omega

/-- On its way through a branch the turtle comes back to the foot of it. -/
theorem follow_branch {contents : Forest Float} (unbracketed : contents.Unbracketed)
    (turtle : Turtle) :
    (follow (.enter :: (Forest.visits contents ++ [.exit])) turtle).pose = turtle.pose ∧
      (follow (.enter :: (Forest.visits contents ++ [.exit])) turtle).saved = turtle.saved := by
  have inside := crosses_visits unbracketed turtle.save
  simp [inside.restore_eq]

end Turtle

/-! ## Rendering with the turtle -/

namespace Development

/-- The host after some steps of a rendering that has been begun now. -/
def hostAfter {V σ : Type} (steps : Nat) (system : Development V σ) : σ :=
  (system.beginRendering.advanceRendering steps).2.host

variable {system : Development Float Turtle}

theorem hostAfter_eq (bound : system.actions = Turtle.actions) (steps : Nat) :
    system.hostAfter steps =
      Turtle.follow ((Forest.visits system.current).take steps) system.host := by
  have called := host_performAll
    (undisturbed_advanceRendering steps system.beginRendering)
  have asked : stepsAsked [(.advanceRendering steps : Operation Float Turtle)] = steps := rfl
  have inForce : actionsInForce system.actions [.advanceRendering steps] =
      fun _ => Turtle.actions := by
    funext step
    exact (ite_self _).trans bound
  rw [asked, inForce, performAll_advanceRendering] at called
  exact called

theorem render_host_eq (bound : system.actions = Turtle.actions) :
    system.render.host = Turtle.follow (Forest.visits system.current) system.host := by
  have whole := hostAfter_eq bound (Forest.size system.current)
  rw [← Forest.length_visits, List.take_length, Forest.length_visits] at whole
  exact whole

/-- What it means that a turtle, wherever it starts, comes back from the branches of the
current generation. -/
structure TurtleReturns (system : Development Float Turtle) : Prop where
  /-- Behind each branch, at any depth, it stands where it stood in front of it, and has the
  same poses saved. -/
  returns : ∀ (before : List (Visit Float)) (contents : Forest Float)
      (after : List (Visit Float)),
    Forest.visits system.current =
      before ++ .enter :: (Forest.visits contents ++ .exit :: after) →
    (system.hostAfter (before.length + Forest.size contents + 2)).pose =
        (system.hostAfter before.length).pose ∧
      (system.hostAfter (before.length + Forest.size contents + 2)).saved =
        (system.hostAfter before.length).saved
  /-- Where a branch ends there is a pose that was saved on the way. -/
  provided : ∀ before after, Forest.visits system.current = before ++ .exit :: after →
    system.host.saved.length < (system.hostAfter before.length).saved.length
  /-- At the end it has the same poses saved as at the start. -/
  saved : system.render.host.saved = system.host.saved
  /-- It has been as deep as the branches lie inside one another, from where it started. -/
  deepest : Forest.branches system.current ≠ 0 →
    system.render.host.deepest =
      max system.host.deepest (system.host.saved.length + Forest.nesting system.current)
  unbranched : Forest.branches system.current = 0 →
    system.render.host.deepest = system.host.deepest
  /-- It draws a segment for each module with the symbol for it, whatever its arguments. -/
  segments : system.render.host.segments =
    system.host.segments + (Forest.leaves system.current).countP (·.symbol = ⟨"F"⟩)

theorem turtleReturns_of_unbracketed (bound : system.actions = Turtle.actions)
    (unbracketed : Forest.Unbracketed system.current) : TurtleReturns system := by
  have crossed := Turtle.crosses_visits unbracketed system.host
  rw [← render_host_eq bound] at crossed
  exact {
    returns := by
      intro before contents after walk
      have inside : Forest.Unbracketed contents := by
        rw [← List.singleton_append, ← List.append_assoc] at walk
        exact unbracketed.of_visits walk
      have foot : (Forest.visits system.current).take before.length = before := by
        rw [walk, List.take_left]
      have back : (Forest.visits system.current).take
          (before.length + Forest.size contents + 2) =
          before ++ .enter :: (Forest.visits contents ++ [.exit]) := by
        have split : Forest.visits system.current =
            (before ++ .enter :: (Forest.visits contents ++ [.exit])) ++ after := by
          simp [walk]
        have length : (before ++ Visit.enter :: (Forest.visits contents ++ [Visit.exit])).length =
            before.length + Forest.size contents + 2 := by
          simp only [List.length_append, List.length_cons, List.length_nil, Forest.length_visits]
          omega
        rw [split, ← length, List.take_left]
      rw [hostAfter_eq bound, hostAfter_eq bound, foot, back, Turtle.follow_append]
      exact Turtle.follow_branch inside _
    provided := by
      intro before after walk
      rw [hostAfter_eq bound, walk, List.take_left]
      exact Turtle.saved_lt_of_exit unbracketed walk system.host
    saved := crossed.saved
    deepest := by
      intro branched
      rw [crossed.deepest, if_neg (mt (Forest.nesting_eq_zero_iff _).mp branched)]
    unbranched := by
      intro unbranched
      rw [crossed.deepest, if_pos ((Forest.nesting_eq_zero_iff _).mpr unbranched)]
    segments := crossed.segments }

/-- A stem with a shoot that has a shoot itself, and a turtle that is in a branch already. -/
def coppice : Development Float Turtle :=
  fresh
    [.leaf ⟨⟨"F"⟩, [2.0]⟩,
      .branch [.leaf ⟨⟨"+"⟩, []⟩, .leaf ⟨⟨"F"⟩, []⟩,
        .branch [.leaf ⟨⟨"-"⟩, []⟩, .leaf ⟨⟨"F"⟩, []⟩], .leaf ⟨⟨"X"⟩, []⟩],
      .leaf ⟨⟨"F"⟩, []⟩]
    .empty [] Turtle.actions { Turtle.home with saved := [⟨1.0, 2.0, 45.0⟩] } (.scripted [])

theorem coppice_turtleReturns :
    coppice.actions = Turtle.actions ∧ Forest.Unbracketed coppice.current ∧
      TurtleReturns coppice ∧ coppice.render.host.saved = coppice.host.saved ∧
      coppice.render.host.deepest = 3 ∧ coppice.render.host.segments = 4 := by
  have unbracketed : Forest.Unbracketed coppice.current := by decide
  have returned : TurtleReturns coppice := turtleReturns_of_unbracketed rfl unbracketed
  exact ⟨rfl, unbracketed, returned, returned.saved, returned.deepest (by decide),
    returned.segments⟩

end Development
end LSystem
