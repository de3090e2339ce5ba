import LSystem.Demo.Catalog
import LSystem.Proofs.Cursor.Inquiry
import LSystem.Proofs.Rule.Firing

namespace LSystem

/-!
# Probing

Lookups, attempts to match a rule and whole derivations share one cursor, and
each leaves the context somewhere else.  None of this counts once the context is
put back: it then depends on the steps of the walk alone.  Main statement: after
any two histories with equally many steps, the same questions get the same
answers from the moment when the context is put back, be it because a host asks
for that, by a direction that starts over, by an attempt or by a step.
-/

variable {V : Type}

/-! ## Matching as an inquiry -/

namespace CompiledRule

/-- What is asked in order to find context predecessors one after another. -/
def contextInquiry : List ContextPredecessor → Inquiry V (Option (List V))
  | [] => .done (some [])
  | predecessor :: rest =>
      .toward predecessor.direction fun found =>
        match found with
        | none => .done none
        | some letter =>
            if letter.signature = predecessor.signature then
              (contextInquiry rest).map fun arguments => arguments.map (letter.arguments ++ ·)
            else .done none

/-- What is asked in order to match a rule. -/
def inquiry (rule : CompiledRule V) (letter : Module V) : Inquiry V (Option (List V)) :=
  .ask .resetContext fun _ =>
    if letter.signature = rule.strict then
      (contextInquiry rule.context).map fun gathered =>
        (gathered.map (letter.arguments ++ ·)).filter rule.admits
    else .done none

@[simp]
theorem pursue_contextInquiry (ignore : List Symbol) (context : List ContextPredecessor)
    (cursor : Cursor V) :
    cursor.pursue ignore (contextInquiry context) = follow ignore context cursor := by
  induction context generalizing cursor with
  | nil => rfl
  | cons predecessor rest inductionHypothesis =>
      rw [contextInquiry, Cursor.pursue_toward, follow]
      rcases looked : cursor.navigate ignore predecessor.direction with ⟨_ | letter, moved⟩
      · rfl
      · dsimp only
        split
        · simp [inductionHypothesis]
        · rfl

@[simp]
theorem pursue_inquiry (ignore : List Symbol) (rule : CompiledRule V) (letter : Module V)
    (cursor : Cursor V) :
    cursor.pursue ignore (rule.inquiry letter) = rule.matchAt ignore letter cursor := by
  rw [inquiry, Cursor.pursue, matchAt]
  dsimp only [Cursor.perform]
  split
  · simp
  · rfl

end CompiledRule

namespace RuleTable

/-- What is asked in order to find the first rule that matches. -/
def rulesInquiry (letter : Module V) (chance : Chance) : List (CompiledRule V) →
    Inquiry V (Except ConfigurationError (Option (Forest V)) × Chance)
  | [] => .done (.ok none, chance)
  | rule :: rest =>
      (rule.inquiry letter).bind fun arguments =>
        match arguments with
        | none => rulesInquiry letter chance rest
        | some arguments =>
            let (outcome, chance) := rule.produce arguments chance
            .done (outcome.map some, chance)

/-- What is asked in order to derive the replacement of a module. -/
def inquiry (table : RuleTable V) (letter : Module V) (chance : Chance) :
    Inquiry V (Except ConfigurationError (Option (Forest V)) × Chance) :=
  rulesInquiry letter chance ((table.bucket? letter.signature).getD [])

@[simp]
theorem pursue_rulesInquiry (ignore : List Symbol) (letter : Module V) (chance : Chance)
    (rules : List (CompiledRule V)) (cursor : Cursor V) :
    cursor.pursue ignore (rulesInquiry letter chance rules) =
      let derivation := tryRules ignore letter cursor chance rules
      ((derivation.outcome, derivation.chance), derivation.cursor) := by
  induction rules generalizing cursor with
  | nil => rfl
  | cons rule rest inductionHypothesis =>
      rw [rulesInquiry, Cursor.pursue_bind, CompiledRule.pursue_inquiry, tryRules]
      rcases attempt : rule.matchAt ignore letter cursor with ⟨_ | arguments, moved⟩
      · exact inductionHypothesis moved
      · rfl

@[simp]
theorem pursue_inquiry (ignore : List Symbol) (table : RuleTable V) (letter : Module V)
    (chance : Chance) (cursor : Cursor V) :
    cursor.pursue ignore (table.inquiry letter chance) =
      let derivation := table.derive ignore letter cursor chance
      ((derivation.outcome, derivation.chance), derivation.cursor) :=
  pursue_rulesInquiry ignore letter chance _ cursor

end RuleTable

/-! ## Probes -/

/-- All that is done with a cursor in the course of a pass. -/
inductive Probe (V : Type) where
  | ask (call : Cursor.Call)
  | attempt (rule : CompiledRule V) (letter : Module V)
  | derive (table : RuleTable V) (letter : Module V) (chance : Chance)

namespace Probe

/-- What a probe tells. -/
inductive Answer (V : Type) where
  | replied (reply : Cursor.Reply V)
  | matched (arguments : Option (List V))
  | derived (outcome : Except ConfigurationError (Option (Forest V))) (chance : Chance)

/-- Only a step moves the walk. -/
def isStep : Probe V → Bool
  | .ask call => call = .next
  | .attempt _ _ => false
  | .derive _ _ _ => false

/-- What a probe asks of a cursor. -/
def inquiry : Probe V → Inquiry V (Answer V)
  | .ask call => .ask call fun reply => .done (.replied reply)
  | .attempt rule letter => (rule.inquiry letter).map .matched
  | .derive table letter chance =>
      (table.inquiry letter chance).map fun derived => .derived derived.1 derived.2

end Probe

namespace Cursor

variable (ignore : List Symbol)

/-- Makes a probe. -/
def probe (cursor : Cursor V) : Probe V → Probe.Answer V × Cursor V
  | .ask call => (.replied (cursor.perform ignore call).1, (cursor.perform ignore call).2)
  | .attempt rule letter =>
      (.matched (rule.matchAt ignore letter cursor).1, (rule.matchAt ignore letter cursor).2)
  | .derive table letter chance =>
      let derivation := table.derive ignore letter cursor chance
      (.derived derivation.outcome derivation.chance, derivation.cursor)

/-- Makes probes one after another. -/
def probeAll : List (Probe V) → Cursor V → List (Probe.Answer V) × Cursor V
  | [], cursor => ([], cursor)
  | probe :: rest, cursor =>
      let (answer, moved) := cursor.probe ignore probe
      let (answers, last) := probeAll rest moved
      (answer :: answers, last)

/-- The answers to some probes, made after others, over a forest. -/
def answersAfter (forest : Forest V) (history following : List (Probe V)) :
    List (Probe.Answer V) :=
  (probeAll ignore following (probeAll ignore history (.start forest)).2).1

/-- The answers to some probes at a place that the walk has only just got to. -/
def answersAt (place : Place V) (following : List (Probe V)) : List (Probe.Answer V) :=
  (probeAll ignore following (.on place)).1

end Cursor

namespace Bookmark

variable (forest : Forest V) (ignore : List Symbol)

/-- Makes a probe. -/
def probe (mark : Bookmark) (probe : Probe V) : Option (Probe.Answer V × Bookmark) :=
  mark.pursue forest ignore probe.inquiry

/-- Makes probes one after another. -/
def probeAll : List (Probe V) → Bookmark → Option (List (Probe.Answer V) × Bookmark)
  | [], mark => some ([], mark)
  | probe :: rest, mark => do
      let (answer, moved) ← mark.probe forest ignore probe
      let (answers, last) ← probeAll rest moved
      some (answer :: answers, last)

/-- The answers to some probes, made after others. -/
def answersAfter (history following : List (Probe V)) : Option (List (Probe.Answer V)) := do
  let (_, mark) ← start.probeAll forest ignore history
  let (answers, _) ← mark.probeAll forest ignore following
  some answers

end Bookmark

/-! ## Probes of bookmarks -/

@[simp]
theorem Cursor.pursue_inquiry (ignore : List Symbol) (probe : Probe V) (cursor : Cursor V) :
    cursor.pursue ignore probe.inquiry = cursor.probe ignore probe := by
  cases probe with
  | ask call => rfl
  | attempt rule letter => simp [Probe.inquiry, Cursor.probe]
  | derive table letter chance => simp [Probe.inquiry, Cursor.probe]

namespace Bookmark

theorem WellFormed.probeAll {forest : Forest V} {mark : Bookmark}
    (wellFormed : mark.WellFormed forest) (ignore : List Symbol) (probes : List (Probe V)) :
    ∃ answers after, mark.probeAll forest ignore probes = some (answers, after) ∧
      after.WellFormed forest ∧
      (mark.cursor forest).probeAll ignore probes = (answers, after.cursor forest) := by
  induction probes generalizing mark with
  | nil => exact ⟨[], mark, rfl, wellFormed, rfl⟩
  | cons probe rest inductionHypothesis =>
      rcases wellFormed.pursue ignore probe.inquiry with ⟨answer, moved, first, fits, sameFirst⟩
      rcases inductionHypothesis fits with ⟨answers, last, later, fitsLast, sameLater⟩
      rw [Cursor.pursue_inquiry] at sameFirst
      refine ⟨answer :: answers, last, ?_, fitsLast, ?_⟩
      · simp only [Bookmark.probeAll, Bookmark.probe, first, later, Option.bind_eq_bind,
          Option.bind_some]
      · simp only [Cursor.probeAll, sameFirst, sameLater]

/-- What a bookmark is asked to derive comes to the same as with the cursor. -/
theorem WellFormed.derives {forest : Forest V} {mark : Bookmark}
    (wellFormed : mark.WellFormed forest) (table : RuleTable V)
    (ignore : List Symbol) (letter : Module V) (chance : Chance) :
    ∃ after, mark.pursue forest ignore (table.inquiry letter chance) =
        some (((table.derive ignore letter (mark.cursor forest) chance).outcome,
          (table.derive ignore letter (mark.cursor forest) chance).chance), after) ∧
      after.WellFormed forest ∧
      after.cursor forest = (table.derive ignore letter (mark.cursor forest) chance).cursor := by
  rcases wellFormed.pursue ignore (table.inquiry letter chance) with
    ⟨result, after, asked, fits, same⟩
  rw [RuleTable.pursue_inquiry] at same
  rcases Prod.mk.inj same with ⟨rfl, moved⟩
  exact ⟨after, asked, fits, moved.symm⟩

/-- Probes of bookmarks have answers, and these are the answers of a cursor. -/
theorem answersAfter_eq (forest : Forest V) (ignore : List Symbol)
    (history following : List (Probe V)) :
    answersAfter forest ignore history following =
      some (Cursor.answersAfter ignore forest history following) := by
  rcases (wellFormed_start forest).probeAll ignore history with ⟨told, mark, first, fits, same⟩
  rcases fits.probeAll ignore following with ⟨answers, last, later, -, sameLater⟩
  rw [cursor_start] at same
  simp only [answersAfter, first, later, Cursor.answersAfter, same, sameLater, Option.bind_eq_bind,
    Option.bind_some]

end Bookmark

/-! ## The walk behind the probes -/

namespace Cursor

variable (ignore : List Symbol)

theorem position_probe (probe : Probe V) (cursor : Cursor V) :
    (cursor.probe ignore probe).2.position =
      cursor.position.onward (if probe.isStep then 1 else 0) := by
  cases probe with
  | ask call =>
      have counted : (if (Probe.ask call : Probe V).isStep then 1 else 0) = call.steps := by
        simp only [Probe.isStep, Call.steps, decide_eq_true_eq]
      rw [counted]
      exact (walk_perform ignore call cursor).2
  | attempt rule letter => exact rule.position_matchAt ignore letter cursor
  | derive table letter chance => exact table.position_derive ignore letter cursor chance

/-- Of all that has been done, only the steps show in where the walk stands. -/
theorem position_probeAll (probes : List (Probe V)) (cursor : Cursor V) :
    (cursor.probeAll ignore probes).2.position =
      cursor.position.onward (probes.countP Probe.isStep) := by
  induction probes generalizing cursor with
  | nil => rfl
  | cons probe rest inductionHypothesis =>
      rw [List.countP_cons, Nat.add_comm, Place.onward_add, ← position_probe]
      exact inductionHypothesis _

theorem probeAll_append (first second : List (Probe V)) (cursor : Cursor V) :
    (cursor.probeAll ignore (first ++ second)).2 =
      ((cursor.probeAll ignore first).2.probeAll ignore second).2 := by
  induction first generalizing cursor with
  | nil => rfl
  | cons probe rest inductionHypothesis => exact inductionHypothesis _

end Cursor

/-! ## Putting the context back -/

/-- A history after which the context is back at the walk, at the latest when the
first of the probes that follow is made. -/
inductive Renewed (forest : Forest V) (ignore : List Symbol) :
    List (Probe V) → List (Probe V) → Prop where
  | byReset (history following : List (Probe V)) :
      Renewed forest ignore (history ++ [.ask .resetContext]) following
  /-- A step puts the context back, unless it is refused. -/
  | byStep (history following : List (Probe V))
      (goesOn : (Cursor.probeAll ignore history (.start forest)).2.hasNext = true) :
      Renewed forest ignore (history ++ [.ask .next]) following
  | byOrigin (history : List (Probe V)) (axis : Axis) (following : List (Probe V)) :
      Renewed forest ignore history (.ask (.navigate ⟨axis, true⟩) :: following)
  | byAttempt (history : List (Probe V)) (rule : CompiledRule V) (letter : Module V)
      (following : List (Probe V)) :
      Renewed forest ignore history (.attempt rule letter :: following)
  /-- Whoever asks whether the walk goes on changes nothing. -/
  | asked (history following : List (Probe V)) (renewed : Renewed forest ignore history following) :
      Renewed forest ignore (history ++ [.ask .hasNext]) following

/-- Once the context is back at the walk, what follows is answered as if the walk
had only just got to where it stands. -/
theorem Renewed.answersAfter_eq {forest : Forest V} {ignore : List Symbol}
    {history following : List (Probe V)} (renewed : Renewed forest ignore history following) :
    Cursor.answersAfter ignore forest history following =
      Cursor.answersAt ignore (Cursor.probeAll ignore history (.start forest)).2.position
        following := by
  unfold Cursor.answersAfter
  -- One case for each way in which the context comes back. Only a step can fail to do so.
  induction renewed with
  | byReset history following =>
      rw [Cursor.probeAll_append]
      rfl
  | byStep history following goesOn =>
      rw [Cursor.hasNext_eq_isSome_step?, Option.isSome_iff_exists] at goesOn
      rcases goesOn with ⟨⟨visit, next⟩, taken⟩
      have made := Cursor.perform_next_of_step ignore (Place.step?_eq_some_iff.mp taken)
      simp only [Cursor.probeAll_append, Cursor.probeAll, Cursor.probe, made]
      rfl
  | byOrigin history axis following => rfl
  | byAttempt history rule letter following => rfl
  | asked history following renewed inductionHypothesis =>
      rw [Cursor.probeAll_append]
      exact inductionHypothesis

/-! ## Two histories -/

/-- The answers that probes get after a history, from a cursor as well as from a
bookmark. -/
structure Answered (forest : Forest V) (ignore : List Symbol)
    (history following : List (Probe V)) (answers : List (Probe.Answer V)) : Prop where
  byCursor : Cursor.answersAfter ignore forest history following = answers
  byBookmark : Bookmark.answersAfter forest ignore history following = some answers

/-- The answers depend on the number of steps and on nothing else in the history. -/
theorem Renewed.answered {forest : Forest V} {ignore : List Symbol}
    {history following : List (Probe V)} (renewed : Renewed forest ignore history following)
    {steps : Nat} (counted : history.countP Probe.isStep = steps) :
    Answered forest ignore history following
      (Cursor.answersAt ignore ((Place.root forest).onward steps) following) := by
  have stands := Cursor.position_probeAll ignore history (.start forest)
  have answers := renewed.answersAfter_eq
  rw [stands, counted] at answers
  refine ⟨answers, ?_⟩
  rw [Bookmark.answersAfter_eq, answers]
  rfl

/-- Nothing of what has been looked up, matched or derived before shows once the
context is back: only the steps count.  An attempt puts the context back itself, so
it never matters to it what has been tried before. -/
theorem answered_of_renewed (forest : Forest V) (ignore : List Symbol)
    {first second following : List (Probe V)}
    (sameSteps : first.countP Probe.isStep = second.countP Probe.isStep)
    (firstRenewed : Renewed forest ignore first following)
    (secondRenewed : Renewed forest ignore second following) :
    (∃ answers,
      answers = Cursor.answersAt ignore
        ((Place.root forest).onward (first.countP Probe.isStep)) following ∧
      Answered forest ignore first following answers ∧
      Answered forest ignore second following answers) ∧
    ∀ tried other : List (Probe V),
      tried.countP Probe.isStep = other.countP Probe.isStep →
      ∀ (rule : CompiledRule V) (letter : Module V) (further : List (Probe V)),
        ∃ answers,
          answers = Cursor.answersAt ignore
            ((Place.root forest).onward ((first ++ tried).countP Probe.isStep))
            (.attempt rule letter :: further) ∧
          Answered forest ignore (first ++ tried) (.attempt rule letter :: further) answers ∧
          Answered forest ignore (second ++ other) (.attempt rule letter :: further) answers := by
  refine ⟨⟨_, rfl, firstRenewed.answered rfl, secondRenewed.answered sameSteps.symm⟩, ?_⟩
  intro tried other sameTried rule letter further
  have sameBoth : (second ++ other).countP Probe.isStep =
      (first ++ tried).countP Probe.isStep := by
    rw [List.countP_append, List.countP_append, sameSteps, sameTried]
  exact ⟨_, rfl, Renewed.answered (.byAttempt _ rule letter further) rfl,
    Renewed.answered (.byAttempt _ rule letter further) sameBoth⟩

namespace Shoot

/-- A segment with a shoot. -/
def forest : Forest Float := [Catalog.stem, .branch [Catalog.stem, Catalog.stem]]

/-- Asks for the segment that a shoot hangs off. -/
def rooted : CompiledRule Float :=
  ⟨0, ⟨⟨"F"⟩, 0⟩, [⟨⟨⟨"F"⟩, 0⟩, ⟨.parent, false⟩⟩], none, []⟩

/-- Climbs past the outermost level and goes down again on the way. -/
def wandering : List (Probe Float) :=
  [.ask .next, .ask (.lookUp .parent), .ask (.lookUp .child), .ask .next, .ask (.lookUp .parent),
    .ask (.lookUp .parent)]

/-- Goes straight to the same place and tries a rule there. -/
def straight : List (Probe Float) :=
  [.ask .next, .ask .next, .ask .next, .attempt rooted (.plain ⟨"F"⟩)]

/-- Inside the shoot, the wandering host steps once more, and the other one asks
for the context to be put back. -/
theorem answered_wandering_straight :
    ∃ lookups attempts,
      Answered forest [] (wandering ++ [.ask .next])
        [.ask (.lookUp .nextSibling), .ask (.lookUp .parent)] lookups ∧
      Answered forest [] (straight ++ [.ask .resetContext])
        [.ask (.lookUp .nextSibling), .ask (.lookUp .parent)] lookups ∧
      Answered forest [] (wandering ++ [.ask .next] ++ [.ask (.lookUp .child)])
        [.attempt rooted (.plain ⟨"F"⟩)] attempts ∧
      Answered forest [] (straight ++ [.ask .resetContext] ++ [])
        [.attempt rooted (.plain ⟨"F"⟩)] attempts := by
  have stepped : Renewed forest [] (wandering ++ [.ask .next])
      [.ask (.lookUp .nextSibling), .ask (.lookUp .parent)] :=
    .byStep wandering _ (by decide +kernel)
  have reset : Renewed forest [] (straight ++ [.ask .resetContext])
      [.ask (.lookUp .nextSibling), .ask (.lookUp .parent)] := .byReset straight _
  rcases answered_of_renewed forest [] (by decide) stepped reset with
    ⟨⟨lookups, -, afterStep, afterReset⟩, attempted⟩
  rcases attempted [.ask (.lookUp .child)] [] (by decide) rooted (.plain ⟨"F"⟩) [] with
    ⟨attempts, -, wandered, straightOn⟩
  exact ⟨lookups, attempts, afterStep, afterReset, wandered, straightOn⟩

end Shoot
end LSystem
