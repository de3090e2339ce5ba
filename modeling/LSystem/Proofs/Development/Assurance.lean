import LSystem.Proofs.Development.Consistency
import LSystem.Proofs.Development.Renewal
import LSystem.Proofs.Rule.Draw

namespace LSystem

/-!
# Assurance

All that can go wrong with a pass is a draw that no successor answers to.  The
checks see to it that every draw below one is answered to, so a host that provides
only such draws is never told of an error, whatever it does with a system and
whichever rules it puts in place on the way.
-/

variable {V σ : Type}

namespace Development

/-- A system whose rules have passed the checks, with a source of chance that gives
numbers from zero up to but not including one. -/
structure Assured (system : Development V σ) : Prop where
  accepted : ∃ rules, RuleTable.ofRules rules = .ok system.rules
  draws : ∀ index, 0.0 ≤ system.chance.draws index ∧ system.chance.draws index < 1.0

theorem SetUpWith.assured {start : Forest V} {rules : List (Rule V)} {ignore : List Symbol}
    {chance : Chance} {system : Development V σ}
    (setUp : SetUpWith start rules ignore chance system)
    (draws : ∀ index, 0.0 ≤ chance.draws index ∧ chance.draws index < 1.0) : system.Assured where
  accepted := ⟨rules, setUp.compiled⟩
  draws := by
    rw [setUp.draws.draws_eq]
    exact draws

theorem exists_setUpWith_performAll {start : Forest V} {rules : List (Rule V)}
    {ignore : List Symbol} {actions : Actions V σ} {host : σ} {chance : Chance}
    {first : Development V σ}
    (created : create start rules ignore actions host chance = .ok first)
    (operations : List (Operation V σ)) :
    ∃ rules, SetUpWith start rules ignore chance (Operation.performAll operations first) := by
  apply Operation.performAll_keeps
    (motive := fun system => ∃ rules, SetUpWith start rules ignore chance system)
  · rintro operation system ⟨rules, setUp⟩
    exact ⟨_, setUp.respond (.perform operation)⟩
  · exact ⟨rules, .of_create created⟩

namespace Assured

variable {system after : Development V σ}

theorem of_sameSetup (assured : system.Assured) (same : SameSetup system after) :
    after.Assured where
  accepted := by
    rw [same.rules]
    exact assured.accepted
  draws := by
    rw [same.chance.draws_eq]
    exact assured.draws

/-! ## Generating -/

theorem exists_stepPass (assured : system.Assured) (running : system.isGenerating = true) :
    ∃ after, system.stepPass = (.ok (), after) := by
  rcases stepped : system.stepPass with ⟨fault | ⟨⟩, after⟩
  · rcases stepPass_eq_error running stepped with ⟨pass, error, chance, _, _, failure, _⟩
    rcases assured.accepted with ⟨rules, accepted⟩
    cases failure with
    | unchosen moved alive derived =>
        rcases RuleTable.exists_replacement accepted system.ignore _ _
          (assured.draws system.chance.used).2 with ⟨replacement, succeeded⟩
        cases derived.symm.trans succeeded
  · exact ⟨after, rfl⟩

theorem exists_advancePass (assured : system.Assured) (limit : Nat) :
    ∃ taken after, system.advancePass limit = (.ok taken, after) := by
  have run : Runs (fun _ => Assured) limit (system.advancePass limit) := by
    apply runs_advancePass limit assured
    intro count before after within running taken holds
    have same := sameSetup_stepPass before
    rw [taken] at same
    exact holds.of_sameSetup same
  rcases advanced : system.advancePass limit with ⟨fault | taken, after⟩
  · rw [advanced] at run
    rcases run with ⟨_, last, _, holds, running, failed⟩
    rcases holds.exists_stepPass running with ⟨_, stepped⟩
    cases failed.symm.trans stepped
  · exact ⟨taken, after, rfl⟩

theorem exists_generate (assured : system.Assured) :
    ∃ after, system.generate = (.ok (), after) := by
  have begun : system.beginPass.Assured := assured.of_sameSetup (sameSetup_parkPass _ system)
  rcases begun.exists_advancePass (Forest.size system.current) with ⟨taken, after, advanced⟩
  refine ⟨after, ?_⟩
  rw [generate_eq, advanced]
  rfl

theorem exists_generateMany (assured : system.Assured) (passes : Nat) :
    ∃ after, system.generateMany passes = (.ok (), after) := by
  rcases generated : system.generateMany passes with ⟨fault | ⟨⟩, after⟩
  · rcases generateMany_eq_error generated with ⟨made, reached, _, onward, _, failed⟩
    have same : SameSetup system (system.generateMany made).2 :=
      sameSetup_of_generates (show (Operation.generateMany made).generates = true from rfl) system
    rw [onward] at same
    rcases (assured.of_sameSetup same).exists_generate with ⟨_, succeeded⟩
    cases failed.symm.trans succeeded
  · exact ⟨after, rfl⟩

/-- Of all operations that generate, only a single step is ever refused, and only if
there is none to be taken. -/
theorem perform_of_generates (assured : system.Assured) {operation : Operation V σ}
    (generates : operation.generates = true) :
    (∃ taken, (operation.perform system).1 = .ok taken) ∨
      operation = .stepPass ∧ system.isGenerating = false := by
  cases operation with
  | generate =>
      rcases assured.exists_generate with ⟨after, generated⟩
      refine .inl ⟨none, ?_⟩
      rw [Operation.perform, generated]
      rfl
  | generateMany passes =>
      rcases assured.exists_generateMany passes with ⟨after, generated⟩
      refine .inl ⟨none, ?_⟩
      rw [Operation.perform, generated]
      rfl
  | beginPass => exact .inl ⟨none, rfl⟩
  | stepPass =>
      cases running : system.isGenerating with
      | true =>
          rcases assured.exists_stepPass running with ⟨after, stepped⟩
          refine .inl ⟨none, ?_⟩
          rw [Operation.perform, stepped]
          rfl
      | false => exact .inr ⟨rfl, rfl⟩
  | advancePass limit =>
      rcases assured.exists_advancePass limit with ⟨taken, after, advanced⟩
      refine .inl ⟨some taken, ?_⟩
      rw [Operation.perform, advanced]
      rfl
  | reset => cases generates
  | setRules => cases generates
  | bind => cases generates
  | unbind => cases generates
  | render => cases generates
  | beginRendering => cases generates
  | stepRendering => cases generates
  | advanceRendering => cases generates

end Assured

/-! ## Chance decides -/

/-- The sums of every rule that passes the checks rise from zero to one and are what
is stored with its successors.  A rule with several successors that fires decides by
the next draw, and only a draw that is not below one is refused.  So a host that
provides no such draw is never told of an error by any operation that generates,
except that a single step is refused when no pass is in progress. -/
theorem chance_decides :
    (∀ (index : Nat) (rule : Rule V) (compiled : CompiledRule V),
      CompiledRule.compile index rule = .ok compiled →
        rule.SumsRise ∧
          ∀ number : Nat, compiled.thresholds[number]? =
            rule.successors[number]?.map fun successor =>
              ⟨rule.sumOf (number + 1), successor.production⟩) ∧
    (∀ (rules : List (Rule V)) (table : RuleTable V),
      RuleTable.ofRules rules = .ok table →
      ∀ (ignore : List Symbol) (letter : Module V) (cursor : Cursor V) (chance : Chance)
        (candidate : Candidate V), candidate.Prevails rules ignore letter cursor.position →
        1 < candidate.rule.successors.length →
        candidate.rule.Decides candidate.index candidate.arguments chance.draw.1
          (table.derive ignore letter cursor chance).outcome) ∧
    ∀ (start : Forest V) (rules : List (Rule V)) (ignore : List Symbol) (actions : Actions V σ)
        (host : σ) (chance : Chance) (first : Development V σ),
      create start rules ignore actions host chance = .ok first →
      (∀ index, 0.0 ≤ chance.draws index ∧ chance.draws index < 1.0) →
      ∀ (operations : List (Operation V σ)) (operation : Operation V σ),
        operation.generates = true →
        (∃ taken, (operation.perform (Operation.performAll operations first)).1 = .ok taken) ∨
          operation = .stepPass ∧ (Operation.performAll operations first).isGenerating = false ∧
            (operation.perform (Operation.performAll operations first)).1 =
              .error (.violation .noPassInProgress) := by
  refine ⟨?_, ?_, ?_⟩
  · intro index rule compiled accepted
    have checks := CompiledRule.compile_eq_ok accepted
    exact ⟨checks.sound.sumsRise, CompiledRule.getElem?_accumulate checks.thresholds⟩
  · intro rules table accepted ignore letter cursor chance candidate prevails several
    exact RuleTable.decides_of_prevails accepted ignore letter cursor chance prevails several
  · intro start rules ignore actions host chance first created draws operations operation generates
    rcases exists_setUpWith_performAll created operations with ⟨inForce, setUp⟩
    rcases (setUp.assured draws).perform_of_generates generates with done | ⟨rfl, idle⟩
    · exact .inl done
    · have consistent := (consistent_create created).performAll operations
      refine .inr ⟨rfl, idle, ?_⟩
      rw [Operation.perform, consistent.stepPass_of_idle idle]
      rfl

/-! ## A weed -/

/-- The rule of the weed after the checks. -/
def branching : CompiledRule Float where
  index := 0
  strict := ⟨⟨"F"⟩, 0⟩
  context := []
  condition := none
  thresholds :=
    [⟨0.25, fun _ => [Catalog.stem, Catalog.leftShoot, Catalog.stem, Catalog.rightShoot,
        Catalog.stem]⟩,
      ⟨0.5, fun _ => [Catalog.stem, Catalog.leftShoot, Catalog.stem]⟩,
      ⟨1.0, fun _ => [Catalog.stem, Catalog.rightShoot, Catalog.stem]⟩]

/-- Its only rule, about to replace a segment. -/
def branchingSegment : Candidate Float where
  index := 0
  rule := Catalog.weed.rules.head (by decide)
  compiled := branching
  arguments := []

theorem prevails_branchingSegment (cursor : Cursor Float) :
    branchingSegment.Prevails Catalog.weed.rules [] (.plain ⟨"F"⟩) cursor.position where
  candidate_matches := ⟨rfl, rfl, rfl⟩
  outranks rival fits := by
    have inside := (List.getElem?_eq_some_iff.mp fits.declared).1
    have only : rival.index = 0 := Nat.lt_one_iff.mp inside
    have declared := fits.declared
    rw [only] at declared
    exact .inr ⟨congrArg Rule.rank (Option.some.inj declared), Nat.zero_le _⟩

/-- The draw one half has just reached the second sum and falls to the third
successor, and no other draw of its script stops the weed either. -/
theorem weed_chance_decides :
    (branchingSegment.rule.SumsRise ∧ branching.thresholds[1]?.map (·.cumulative) =
        some (branchingSegment.rule.sumOf 2)) ∧
      branchingSegment.rule.Decides 0 [] 0.5
        ((weed [0.5]).rules.derive [] (.plain ⟨"F"⟩) (.start Catalog.weed.start)
          (.scripted [0.5])).outcome ∧
      ∃ taken, (Operation.perform (Operation.performAll
        [.generate, .beginPass, .stepPass, .setRules Catalog.weed.rules, .reset]
        (weed [0.5, 0.0, 0.75])) (.generateMany 3)).1 = .ok taken := by
  have draws : ∀ index, 0.0 ≤ (Chance.scripted [0.5, 0.0, 0.75]).draws index ∧
      (Chance.scripted [0.5, 0.0, 0.75]).draws index < 1.0 := by
    intro index
    match index with
    | 0 => decide
    | 1 => decide
    | 2 => decide
    | _ + 3 => exact (by decide : (0.0 : Float) ≤ 0.0 ∧ (0.0 : Float) < 1.0)
  rcases (chance_decides (V := Float) (σ := Unit)) with ⟨sums, choice, systems⟩
  refine ⟨?_, ?_, ?_⟩
  · rcases sums 0 branchingSegment.rule branching rfl with ⟨rises, stored⟩
    refine ⟨rises, ?_⟩
    rw [stored]
    rfl
  · exact choice Catalog.weed.rules (weed [0.5]).rules (SetUpWith.of_create (create_weed [0.5])).compiled
      [] (.plain ⟨"F"⟩) (.start Catalog.weed.start) (.scripted [0.5]) branchingSegment
      (prevails_branchingSegment _) (by decide)
  · rcases systems _ _ _ _ _ _ _ (create_weed [0.5, 0.0, 0.75]) draws
      [.generate, .beginPass, .stepPass, .setRules Catalog.weed.rules, .reset] (.generateMany 3) rfl
      with done | ⟨same, _⟩
    · exact done
    · cases same

end Development
end LSystem
