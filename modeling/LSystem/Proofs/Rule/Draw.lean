import LSystem.Proofs.Number.Addition
import LSystem.Proofs.Rule.Selection
import LSystem.Proofs.Rule.Validation

namespace LSystem

/-!
# Sums and draws

The probabilities of a rule add up to a staircase that starts at zero, never
goes down and ends at one, although every sum is rounded.  A draw falls on one
of its steps.  Main statement: of a rule that passes the checks, every draw from
zero up to but not including one falls to exactly one successor, which is the one
that is chosen; nothing is chosen just if the draw is not below one.
-/

variable {V : Type}

/-! ## Sums -/

theorem Successor.addUp_concat (sum : Float) (successors : List (Successor V))
    (last : Successor V) :
    addUp sum (successors ++ [last]) = addUp sum successors + last.probability := by
  rw [addUp, addUp, List.foldl_append]
  rfl

namespace Rule

/-- The sum of the first probabilities of a rule, taken from left to right. -/
def sumOf (rule : Rule V) (count : Nat) : Float :=
  Successor.addUp 0.0 (rule.successors.take count)

/-- A draw falls to a successor if it has reached the sum before it, but not the sum
after it. -/
structure FallsTo (rule : Rule V) (draw : Float) (number : Nat) : Prop where
  inside : number < rule.successors.length
  reached : rule.sumOf number ≤ draw
  exceeded : draw < rule.sumOf (number + 1)

variable {rule : Rule V} {draw : Float} {number : Nat} {successor : Successor V}

theorem sumOf_zero (rule : Rule V) : rule.sumOf 0 = 0.0 := rfl

theorem sumOf_succ (here : rule.successors[number]? = some successor) :
    rule.sumOf (number + 1) = rule.sumOf number + successor.probability := by
  rw [sumOf, List.take_add_one, here, Option.toList_some, Successor.addUp_concat, sumOf]

theorem sumOf_succ_of_length_le (outside : rule.successors.length ≤ number) :
    rule.sumOf (number + 1) = rule.sumOf number := by
  rw [sumOf, sumOf, List.take_of_length_le outside,
    List.take_of_length_le (Nat.le_succ_of_le outside)]

theorem sumOf_length (rule : Rule V) : rule.sumOf rule.successors.length = rule.total := by
  rw [sumOf, List.take_length, total]

namespace Sound

section Sums

variable (sound : rule.Sound)

include sound

theorem nonnegative_sumOf (count : Nat) : 0.0 ≤ rule.sumOf count := by
  induction count with
  | zero =>
      rw [sumOf_zero]
      exact Number.le_of_beq (by decide)
  | succ count inductionHypothesis =>
      rcases here : rule.successors[count]? with _ | successor
      · rw [sumOf_succ_of_length_le (List.getElem?_eq_none_iff.mp here)]
        exact inductionHypothesis
      · rw [sumOf_succ here]
        have probable := sound.probable successor (List.mem_of_getElem? here)
        exact Number.le_trans inductionHypothesis (Number.le_add inductionHypothesis probable.1)

theorem sumOf_le_sumOf_succ (count : Nat) : rule.sumOf count ≤ rule.sumOf (count + 1) := by
  have nonnegative := sound.nonnegative_sumOf count
  rcases here : rule.successors[count]? with _ | successor
  · rw [sumOf_succ_of_length_le (List.getElem?_eq_none_iff.mp here)]
    exact Number.le_self_of_le nonnegative
  · rw [sumOf_succ here]
    exact Number.le_add nonnegative (sound.probable successor (List.mem_of_getElem? here)).1

theorem sumOf_le_sumOf {fewer more : Nat} (atMost : fewer ≤ more) :
    rule.sumOf fewer ≤ rule.sumOf more := by
  induction more, atMost using Nat.le_induction with
  | base => exact Number.le_self_of_le (sound.nonnegative_sumOf fewer)
  | succ more _ inductionHypothesis =>
      exact Number.le_trans inductionHypothesis (sound.sumOf_le_sumOf_succ more)

theorem sumOf_le_one (count : Nat) : rule.sumOf count ≤ 1.0 := by
  have whole : rule.total ≤ 1.0 := Number.le_of_beq sound.sums_up
  rw [← sumOf_length] at whole
  rcases Nat.le_total count rule.successors.length with inside | outside
  · exact Number.le_trans (sound.sumOf_le_sumOf inside) whole
  · rw [sumOf, List.take_of_length_le outside, ← List.take_length (l := rule.successors)]
    exact whole

end Sums

/-! ## Steps -/

section Steps

variable (sound : rule.Sound)

include sound

/-- A draw below one is below a sum, and there is a first one of these. -/
theorem exists_first (below : draw < 1.0) :
    ∃ number < rule.successors.length, draw < rule.sumOf (number + 1) ∧
      ∀ earlier < number, ¬ draw < rule.sumOf (earlier + 1) := by
  have belowLast : draw < rule.sumOf rule.successors.length := by
    rw [sumOf_length]
    exact Number.lt_of_lt_of_le below (Number.le_of_beq (Number.beq_symm sound.sums_up))
  have pos := List.length_pos_iff.mpr sound.successors_ne_nil
  have crossed : ∃ number, number < rule.successors.length ∧ draw < rule.sumOf (number + 1) := by
    refine ⟨rule.successors.length - 1, Nat.sub_one_lt_of_lt pos, ?_⟩
    rwa [Nat.sub_add_cancel pos]
  rcases Nat.find_spec crossed with ⟨inside, exceeded⟩
  refine ⟨Nat.find crossed, inside, exceeded, fun earlier less already => ?_⟩
  exact Nat.find_min crossed less ⟨less.trans inside, already⟩

theorem exists_fallsTo (nonnegative : 0.0 ≤ draw) (below : draw < 1.0) :
    ∃ number, rule.FallsTo draw number := by
  rcases sound.exists_first below with ⟨number, inside, exceeded, notBefore⟩
  refine ⟨number, inside, ?_, exceeded⟩
  cases number with
  | zero => exact nonnegative
  | succ number =>
      have isSum := Number.le_self_of_le (sound.nonnegative_sumOf (number + 1))
      exact Number.le_of_not_lt (Number.le_self_of_le nonnegative) isSum
        (notBefore number (Nat.lt_succ_self number))

theorem fallsTo_unique {first second : Nat} (isFirst : rule.FallsTo draw first)
    (isSecond : rule.FallsTo draw second) : first = second := by
  have apart : ∀ {lower upper : Nat}, rule.FallsTo draw lower → rule.FallsTo draw upper →
      ¬ lower < upper := by
    intro lower upper isLower isUpper less
    have past := Number.le_trans (sound.sumOf_le_sumOf less) isUpper.reached
    exact Number.not_lt_of_le past isLower.exceeded
  exact Nat.le_antisymm (Nat.not_lt.mp (apart isSecond isFirst))
    (Nat.not_lt.mp (apart isFirst isSecond))

/-- No draw falls to a successor that has no share. -/
theorem probability_ne_zero_of_fallsTo (falls : rule.FallsTo draw number)
    (here : rule.successors[number]? = some successor) :
    (successor.probability == 0.0) = false := by
  cases shareless : successor.probability == 0.0 with
  | false => rfl
  | true =>
      have isSum := Number.le_self_of_le (sound.nonnegative_sumOf number)
      have flat := Number.le_of_beq (Number.add_beq_of_beq_zero isSum shareless)
      rw [← sumOf_succ here] at flat
      exact absurd falls.exceeded (Number.not_lt_of_le (Number.le_trans flat falls.reached))

end Steps

end Sound

/-! ## The choice -/

theorem chooseFrom_of_first {sum : Float} {successors : List (Successor V)}
    (here : successors[number]? = some successor)
    (exceeded : draw < Successor.addUp sum (successors.take (number + 1)))
    (notBefore : ∀ earlier < number,
      ¬ draw < Successor.addUp sum (successors.take (earlier + 1))) :
    chooseFrom draw sum successors = some successor.production := by
  induction successors generalizing sum number with
  | nil => cases here
  | cons first rest inductionHypothesis =>
      rw [chooseFrom]
      cases number with
      | zero =>
          cases here
          rw [if_pos]
          exact exceeded
      | succ number =>
          have notFirst : ¬ draw < sum + first.probability :=
            notBefore 0 (Nat.zero_lt_succ number)
          rw [if_neg notFirst]
          refine inductionHypothesis here exceeded fun earlier less => ?_
          exact notBefore (earlier + 1) (Nat.succ_lt_succ less)

theorem chooseFrom_eq_none {sum : Float} {successors : List (Successor V)}
    (never : ∀ number, ¬ draw < Successor.addUp sum (successors.take (number + 1))) :
    chooseFrom draw sum successors = none := by
  induction successors generalizing sum with
  | nil => rfl
  | cons first rest inductionHypothesis =>
      have notFirst : ¬ draw < sum + first.probability := never 0
      rw [chooseFrom, if_neg notFirst]
      exact inductionHypothesis fun number => never (number + 1)

namespace Sound

variable (sound : rule.Sound)

include sound

/-- A draw chooses the successor that it falls to. -/
theorem choice_of_fallsTo (falls : rule.FallsTo draw number)
    (here : rule.successors[number]? = some successor) :
    rule.choice draw = some successor.production := by
  refine chooseFrom_of_first here falls.exceeded fun earlier less already => ?_
  exact Number.not_lt_of_le (Number.le_trans (sound.sumOf_le_sumOf less) falls.reached) already

/-- Nothing is chosen just if the draw is not below one. -/
theorem choice_eq_none_iff : rule.choice draw = none ↔ ¬ draw < 1.0 := by
  constructor
  · intro unchosen below
    rcases sound.exists_first below with ⟨number, inside, exceeded, notBefore⟩
    have chosen := chooseFrom_of_first (List.getElem?_eq_getElem inside) exceeded notBefore
    cases unchosen.symm.trans chosen
  · intro notBelow
    refine chooseFrom_eq_none fun number already => notBelow ?_
    exact Number.lt_of_lt_of_le already (sound.sumOf_le_one (number + 1))

end Sound

/-! ## Decisions -/

/-- What the sums of a rule are like. -/
structure SumsRise (rule : Rule V) : Prop where
  zero : rule.sumOf 0 = 0.0
  succ : ∀ number successor, rule.successors[number]? = some successor →
    rule.sumOf (number + 1) = rule.sumOf number + successor.probability
  rises : ∀ fewer more, fewer ≤ more → rule.sumOf fewer ≤ rule.sumOf more
  within : ∀ count, 0.0 ≤ rule.sumOf count ∧ rule.sumOf count ≤ 1.0
  whole : (rule.sumOf rule.successors.length == 1.0) = true

/-- What comes of a rule with several successors when a number has been drawn.  A
successor without a share is never chosen, and a draw that has just reached the sum
after a successor goes on to the next one. -/
structure Decides (rule : Rule V) (index : Nat) (arguments : List V) (draw : Float)
    (outcome : Except ConfigurationError (Option (Forest V))) : Prop where
  refused : ∀ error, outcome = .error error ↔
    error = .inconsistentThresholds index draw ∧ ¬ draw < 1.0
  chosen : 0.0 ≤ draw → draw < 1.0 →
    ∃ number successor, rule.FallsTo draw number ∧
      (∀ other, rule.FallsTo draw other → other = number) ∧
      rule.successors[number]? = some successor ∧
      (successor.probability == 0.0) = false ∧
      outcome = .ok (some (successor.production arguments))

namespace Sound

variable (sound : rule.Sound)

include sound

theorem sumsRise : rule.SumsRise where
  zero := rule.sumOf_zero
  succ _ _ here := sumOf_succ here
  rises _ _ atMost := sound.sumOf_le_sumOf atMost
  within count := ⟨sound.nonnegative_sumOf count, sound.sumOf_le_one count⟩
  whole := by
    rw [sumOf_length]
    exact sound.sums_up

theorem decides (index : Nat) (arguments : List V) (draw : Float) :
    rule.Decides index arguments draw
      (match rule.choice draw with
        | some production => .ok (some (production arguments))
        | none => .error (.inconsistentThresholds index draw)) := by
  constructor
  · intro error
    rw [← sound.choice_eq_none_iff]
    cases rule.choice draw <;> simp [eq_comm]
  · intro nonnegative below
    rcases sound.exists_fallsTo nonnegative below with ⟨number, falls⟩
    have here := List.getElem?_eq_getElem falls.inside
    refine ⟨number, _, falls, fun other otherFalls => sound.fallsTo_unique otherFalls falls, here,
      sound.probability_ne_zero_of_fallsTo falls here, ?_⟩
    rw [sound.choice_of_fallsTo falls here]

end Sound

end Rule

/-! ## Checked rules -/

namespace CompiledRule

/-- What is stored with a successor is the sum up to it. -/
theorem getElem?_accumulate {index : Nat} {sum : Float} {successors : List (Successor V)}
    {thresholds : List (Threshold V)} (summed : accumulate index sum successors = .ok thresholds)
    (number : Nat) :
    thresholds[number]? = successors[number]?.map fun successor =>
      ⟨Successor.addUp sum (successors.take (number + 1)), successor.production⟩ := by
  induction successors generalizing sum thresholds number with
  | nil =>
      have nothing := length_of_accumulate summed
      rw [List.length_nil, List.length_eq_zero_iff] at nothing
      rw [nothing]
      rfl
  | cons successor rest inductionHypothesis =>
      rcases accumulate_cons_eq_ok_iff.mp summed with ⟨-, following, later, rfl⟩
      cases number with
      | zero => rfl
      | succ number => exact inductionHypothesis later number

theorem Checks.sound {index : Nat} {rule : Rule V} {compiled : CompiledRule V}
    (checks : Checks index rule compiled) : rule.Sound := by
  rw [← Rule.faults_eq_nil_iff, ← List.head?_eq_none_iff, ← reported?_compile,
    checks.compile_eq]
  rfl

end CompiledRule

namespace RuleTable

/-- A rule with several successors that fires decides by the next draw. -/
theorem decides_of_prevails {rules : List (Rule V)} {table : RuleTable V}
    (accepted : ofRules rules = .ok table) (ignore : List Symbol) (letter : Module V)
    (cursor : Cursor V) (chance : Chance) {candidate : Candidate V}
    (prevails : candidate.Prevails rules ignore letter cursor.position)
    (several : 1 < candidate.rule.successors.length) :
    candidate.rule.Decides candidate.index candidate.arguments chance.draw.1
      (table.derive ignore letter cursor chance).outcome := by
  have derived := congrArg Prod.fst
    (derive_of_prevails accepted ignore letter cursor chance prevails)
  rw [prevails.checks.produce_of_several several] at derived
  dsimp only at derived
  have decides := prevails.checks.sound.decides candidate.index candidate.arguments chance.draw.1
  rw [derived]
  cases choice : candidate.rule.choice chance.draw.1 with
  | none =>
      rw [choice] at decides
      exact decides
  | some production =>
      rw [choice] at decides
      exact decides

/-- A derivation never fails as long as the next draw is from zero up to but not
including one. -/
theorem exists_replacement {rules : List (Rule V)} {table : RuleTable V}
    (accepted : ofRules rules = .ok table) (ignore : List Symbol) (letter : Module V)
    (cursor : Cursor V) {chance : Chance} (below : chance.draw.1 < 1.0) :
    ∃ replacement, (table.derive ignore letter cursor chance).outcome = .ok replacement := by
  have scan := (derive_iff_scan accepted ignore letter cursor chance).mp ⟨rfl, rfl⟩
  generalize (table.derive ignore letter cursor chance).outcome = outcome at scan ⊢
  generalize (table.derive ignore letter cursor chance).chance = after at scan
  cases scan with
  | unmatched => exact ⟨_, rfl⟩
  | certain => exact ⟨_, rfl⟩
  | chosen => exact ⟨_, rfl⟩
  | inconsistent candidate prevails several unchosen =>
      exact absurd below (prevails.checks.sound.choice_eq_none_iff.mp unchosen)

end RuleTable
end LSystem
