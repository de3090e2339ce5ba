import LSystem.Proofs.Development.Renewal
import LSystem.Proofs.Generation.Accounting

namespace LSystem

/-!
# Reports

A completed pass leaves a report behind.  Between its beginning and its end a host may
do whatever it likes: give up the pass and begin another one, put other rules in place,
render, or run into an error.  All the same the counters of the report balance, for the
tables that were in force at the steps of this pass; and since a pass goes over what the
one before it has written, it visits as many elements as that one has counted.
-/

variable {V σ : Type}

/-! ## Tables in force -/

namespace Development

/-- The number of steps that the pass in progress has taken. -/
def stepsTaken (system : Development V σ) : Nat :=
  match system.pass with
  | none => 0
  | some pass => pass.tally.visited

end Development

namespace Operation

/-- The table at each step of a pass, taken or to come, after an operation.  A pass that is
begun finds the rules of the system, and a change of rules is for the steps to come. -/
def tables (known : Nat → RuleTable V) (system : Development V σ) :
    Operation V σ → Nat → RuleTable V
  | setRules rules => fun step =>
      if step < system.stepsTaken then known step else system.rules.revise rules
  | generate => fun _ => system.rules
  | generateMany (_ + 1) => fun _ => system.rules
  | beginPass => fun _ => system.rules
  | _ => known

/-- The tables at the steps of the pass that a history leaves in progress. -/
def tablesAlong (known : Nat → RuleTable V) :
    List (Operation V σ) → Development V σ → Nat → RuleTable V
  | [], _ => known
  | operation :: rest, system =>
      tablesAlong (operation.tables known system) rest (operation.perform system).2

/-- Whether an operation on its own begins or continues a pass and carries it through. -/
def completesPass (system : Development V σ) (operation : Operation V σ) : Bool :=
  (operation.perform system).1.isOk && !(operation.perform system).2.isGenerating &&
    match operation with
    | generate => true
    | beginPass => true
    | stepPass => system.isGenerating
    | advancePass _ => system.isGenerating
    | _ => false

end Operation

namespace Development

/-! ## Passes that are kept track of -/

/-- A pass that could be parked in a system: its books are in order for the tables that
are known, and the steps to come find the rules of the system. -/
structure Accountable (tables : Nat → RuleTable V) (system : Development V σ) (pass : Pass V) :
    Prop where
  tracks : pass.Tracks system.current
  inForce : ∀ step, pass.tally.visited ≤ step → tables step = system.rules
  accounts : ∃ begun, begun.LeadsTo system.chance ∧
    pass.Accounts tables system.ignore system.current begun system.chance

/-- The pass in progress is kept track of. -/
def Booked (tables : Nat → RuleTable V) (system : Development V σ) : Prop :=
  ∀ pass, system.pass = some pass → Accountable tables system pass

/-- Nothing has been completed. -/
structure Unchanged (before after : Development V σ) : Prop where
  ignore : after.ignore = before.ignore
  generation : after.generation = before.generation
  current : after.current = before.current
  lastPass : after.lastPass = before.lastPass

/-- A pass over the current generation of a system has been completed. -/
structure Completes (tables : Nat → RuleTable V) (before after : Development V σ) : Prop where
  generation : after.generation = before.generation + 1
  pass : after.pass = none
  report : ∃ tally, after.lastPass = some ⟨after.generation, tally⟩ ∧
    tally.Balances tables before.ignore before.current after.current after.chance

/-- A pass goes on, after which nothing has been completed yet. -/
structure Underway (tables : Nat → RuleTable V) (before after : Development V σ) : Prop where
  running : after.isGenerating = true
  booked : after.Booked tables
  unchanged : Unchanged before after

/-- A pass has got on, and may have come to its end. -/
def Advances (tables : Nat → RuleTable V) (before after : Development V σ) : Prop :=
  Underway tables before after ∨ Completes tables before after

/-- A pass has been given up because of a fault. -/
structure Abandoned (before : Development V σ) (_ : Fault) (after : Development V σ) : Prop where
  pass : after.pass = none
  unchanged : Unchanged before after

variable {tables : Nat → RuleTable V} {origin system after : Development V σ} {pass : Pass V}

namespace Unchanged

theorem refl (system : Development V σ) : Unchanged system system := ⟨rfl, rfl, rfl, rfl⟩

theorem trans {first second third : Development V σ} (earlier : Unchanged first second)
    (later : Unchanged second third) : Unchanged first third where
  ignore := later.ignore.trans earlier.ignore
  generation := later.generation.trans earlier.generation
  current := later.current.trans earlier.current
  lastPass := later.lastPass.trans earlier.lastPass

theorem completes (unchanged : Unchanged origin system)
    (completes : Completes tables system after) : Completes tables origin after where
  generation := by rw [completes.generation, unchanged.generation]
  pass := completes.pass
  report := by
    rw [← unchanged.ignore, ← unchanged.current]
    exact completes.report

theorem advances (unchanged : Unchanged origin system)
    (advances : Advances tables system after) : Advances tables origin after := by
  rcases advances with underway | completes
  · exact .inl { underway with unchanged := unchanged.trans underway.unchanged }
  · exact .inr (unchanged.completes completes)

end Unchanged

/-- A system without a pass in progress has nothing to keep track of. -/
theorem booked_of_pass_eq_none (idle : system.pass = none) (tables : Nat → RuleTable V) :
    system.Booked tables := by
  intro pass parked
  cases idle.symm.trans parked

namespace Accountable

theorem start (system : Development V σ) :
    Accountable (fun _ => system.rules) system (.start system.current) where
  tracks := Pass.tracks_start system.current
  inForce _ _ := rfl
  accounts := ⟨system.chance, .refl system.chance, Pass.accounts_start _ _ _ _⟩

theorem step {next : Pass V} {chance : Chance} (accountable : Accountable tables system pass)
    (step : Pass.Step system.rules system.ignore pass system.chance next chance) :
    Accountable tables { system with chance } next where
  tracks := step.tracks accountable.tracks
  inForce := by
    intro later taken
    rw [step.walks.2] at taken
    exact accountable.inForce later (by omega)
  accounts := by
    rcases accountable.accounts with ⟨begun, draws, accounts⟩
    rw [← accountable.inForce pass.tally.visited (Nat.le_refl _)] at step
    exact ⟨begun, draws.trans step.leadsTo, step.accounts accounts⟩

/-- Other rules are for the steps to come. -/
theorem offered (accountable : Accountable tables system pass) (table : RuleTable V) :
    Accountable (fun step => if step < pass.tally.visited then tables step else table)
      { system with rules := table } pass where
  tracks := accountable.tracks
  inForce _ beyond := if_neg (Nat.not_lt.mpr beyond)
  accounts := by
    rcases accountable.accounts with ⟨begun, draws, accounts⟩
    exact ⟨begun, draws, accounts.of_tables fun _ taken => if_pos taken⟩

/-- A pass that is parked goes on, or else it is completed. -/
theorem parkPass (accountable : Accountable tables system pass) :
    Advances tables system (system.parkPass pass) := by
  cases ahead : pass.hasNext with
  | true =>
      rw [parkPass_of_hasNext ahead]
      refine .inl ⟨ahead, ?_, ⟨rfl, rfl, rfl, rfl⟩⟩
      intro parked isParked
      cases isParked
      exact { accountable with }
  | false =>
      rw [parkPass_of_finished ahead]
      rcases accountable.accounts with ⟨begun, draws, accounts⟩
      have balances := accounts.balances draws accountable.tracks ahead
      exact .inr ⟨rfl, rfl, pass.tally, rfl, balances⟩

end Accountable

namespace Booked

/-! ## Steps -/

/-- A step of the pass in progress gets on with it or abandons it. -/
theorem stepPass (booked : system.Booked tables) (running : system.isGenerating = true) :
    Settles (Advances tables system) (Abandoned system) system.stepPass := by
  rcases stepped : system.stepPass with ⟨fault | ⟨⟩, after⟩
  · rcases stepPass_eq_error running stepped with ⟨_, _, _, _, _, _, rfl⟩
    exact ⟨rfl, ⟨rfl, rfl, rfl, rfl⟩⟩
  · rcases stepPass_eq_ok running stepped with ⟨pass, next, chance, parked, step, rfl⟩
    have drawn : Unchanged system { system with chance } := ⟨rfl, rfl, rfl, rfl⟩
    exact drawn.advances ((booked pass parked).step step).parkPass

/-- Several steps do what one does, as long as there are any. -/
theorem advancePass (advances : Advances tables origin system) (limit : Nat) :
    Settles (Advances tables origin) (Abandoned origin) (system.advancePass limit) := by
  have underway {before : Development V σ} (advances : Advances tables origin before)
      (running : before.isGenerating = true) : Underway tables origin before := by
    rcases advances with underway | completes
    · exact underway
    · unfold isGenerating at running
      rw [completes.pass] at running
      cases running
  have run : Runs (fun _ => Advances tables origin) limit (system.advancePass limit) := by
    apply runs_advancePass limit advances
    intro count before next within running taken reached
    have here := underway reached running
    have stepped := here.booked.stepPass running
    rw [taken] at stepped
    exact here.unchanged.advances stepped
  rcases advanced : system.advancePass limit with ⟨fault | taken, after⟩
  · rw [advanced] at run
    rcases run with ⟨_, last, _, reached, running, failed⟩
    have here := underway reached running
    have stopped := here.booked.stepPass running
    rw [failed] at stopped
    exact ⟨stopped.pass, here.unchanged.trans stopped.unchanged⟩
  · rw [advanced] at run
    exact run

end Booked

/-- One pass in one go is carried through or abandoned. -/
theorem settles_generate (system : Development V σ) :
    Settles (Completes (fun _ => system.rules) system) (Abandoned system) system.generate := by
  have advanced := Booked.advancePass (Accountable.start system).parkPass
    (Forest.size system.current)
  have ended := system.isGenerating_generate
  have made := advanced.map fun _ => ()
  change Settles _ _ system.generate at made
  rcases generated : system.generate with ⟨fault | ⟨⟩, after⟩
  · rw [generated] at made
    exact made
  · rw [generated] at made ended
    rcases made with underway | completes
    · cases ended.symm.trans underway.running
    · exact completes

/-! ## Operations -/

/-- Renderings are of no account. -/
theorem booked_bare_iff : system.bare.Booked tables ↔ system.Booked tables := by
  constructor
  · intro booked pass parked
    exact { booked pass parked with }
  · intro booked pass parked
    exact { booked pass parked with }

theorem Booked.of_bare (booked : system.Booked tables) (same : after.bare = system.bare) :
    after.Booked tables := by
  rw [← booked_bare_iff] at booked ⊢
  rwa [same]

theorem Unchanged.of_bare (same : after.bare = system.bare) : Unchanged system after where
  ignore := congrArg (fun bare => bare.ignore) same
  generation := congrArg (fun bare => bare.generation) same
  current := congrArg (fun bare => bare.current) same
  lastPass := congrArg (fun bare => bare.lastPass) same

theorem Booked.offerRules (booked : system.Booked tables) (rules : List (Rule V)) :
    (system.offerRules rules).Booked
      ((Operation.setRules rules : Operation V σ).tables tables system) := by
  rw [offerRules_eq]
  intro pass parked
  have taken : system.stepsTaken = pass.tally.visited := by
    unfold stepsTaken
    rw [show system.pass = some pass from parked]
  rw [Operation.tables, taken]
  exact (booked pass parked).offered _

/-- What an operation does to the generation of a system and to its last report.  It either
completes a pass or it does nothing to them. -/
structure Reports (tables : Nat → RuleTable V) (system : Development V σ)
    (operation : Operation V σ) : Prop where
  completes : operation.completesPass system = true →
    Completes tables system (operation.perform system).2
  unchanged : operation.completesPass system = false →
    Unchanged system (operation.perform system).2

/-- An operation that takes steps completes the pass if it leaves none of them. -/
theorem reports_of_settles {α : Type} {operation : Operation V σ}
    {result : Except Fault α × Development V σ}
    (settles : Settles (Advances tables system) (Abandoned system) result)
    (performed : (operation.perform system).2 = result.2)
    (completes : operation.completesPass system = (result.1.isOk && !result.2.isGenerating)) :
    (operation.perform system).2.Booked tables ∧ Reports tables system operation := by
  rw [performed]
  rcases result with ⟨fault | answer, after⟩
  · rcases settles with ⟨abandoned, unchanged⟩
    refine ⟨booked_of_pass_eq_none abandoned tables, ⟨?_, ?_⟩⟩
    · intro completed
      cases completes.symm.trans completed
    · intro _
      rw [performed]
      exact unchanged
  · rcases settles with underway | completed
    · refine ⟨underway.booked, ⟨?_, ?_⟩⟩
      · intro ended
        rw [completes, underway.running] at ended
        cases ended
      · intro _
        rw [performed]
        exact underway.unchanged
    · refine ⟨booked_of_pass_eq_none completed.pass tables, ⟨?_, ?_⟩⟩
      · intro _
        rw [performed]
        exact completed
      · intro unended
        unfold isGenerating at completes
        rw [completes, completed.pass] at unended
        cases unended

/-- An operation that takes no steps completes nothing. -/
theorem reports_of_unchanged {operation : Operation V σ}
    (unchanged : Unchanged system (operation.perform system).2)
    (uncompleted : operation.completesPass system = false) :
    Reports tables system operation where
  completes completed := nomatch uncompleted.symm.trans completed
  unchanged _ := unchanged

/-- Every operation keeps track of the pass in progress, and apart from a reset and from
several passes in a row it completes one pass or none. -/
theorem Booked.perform {start : Forest V} (booked : system.Booked tables)
    (consistent : system.Consistent start) (operation : Operation V σ)
    (single : operation ≠ .reset ∧ ∀ passes, operation ≠ .generateMany passes) :
    (operation.perform system).2.Booked (operation.tables tables system) ∧
      Reports (operation.tables tables system) system operation := by
  have isOk_map {α β : Type} (outcome : Except Fault α) (answer : α → β) :
      (outcome.map answer).isOk = outcome.isOk := by
    cases outcome <;> rfl
  -- Whatever leaves the bare part of the system alone leaves all of its passes alone.
  have apart (known : operation.tables tables system = tables)
      (same : (operation.perform system).2.bare = system.bare)
      (uncompleted : operation.completesPass system = false) :
      (operation.perform system).2.Booked (operation.tables tables system) ∧
        Reports (operation.tables tables system) system operation := by
    rw [known]
    exact ⟨booked.of_bare same, reports_of_unchanged (.of_bare same) uncompleted⟩
  have rendering (concerns : operation.concernsRendering = true) :
      (operation.perform system).2.bare = system.bare :=
    Operation.bare_perform_of_concernsRendering concerns system
  cases operation with
  | reset => exact absurd rfl single.1
  | generateMany passes => exact absurd rfl (single.2 passes)
  | setRules rules =>
      have offered := booked.offerRules rules
      have same := offerRules_eq rules system
      rw [← Operation.perform_setRules] at offered same
      refine ⟨offered, reports_of_unchanged ?_ (Bool.and_false _)⟩
      rw [same]
      exact ⟨rfl, rfl, rfl, rfl⟩
  | beginPass =>
      have advances := (Accountable.start system).parkPass
      exact reports_of_settles (show Settles _ _ (Except.ok (), system.beginPass) from advances) rfl
        (Bool.and_true _)
  | generate =>
      have settles : Settles (Advances (fun _ => system.rules) system) (Abandoned system)
          system.generate := by
        have ended := settles_generate system
        rcases generated : system.generate with ⟨fault | ⟨⟩, after⟩
        · rw [generated] at ended
          exact ended
        · rw [generated] at ended
          exact .inr ended
      refine reports_of_settles settles rfl ?_
      unfold Operation.completesPass Operation.perform
      rw [isOk_map, Bool.and_true]
  | stepPass =>
      cases running : system.isGenerating with
      | true =>
          refine reports_of_settles (booked.stepPass running) rfl ?_
          unfold Operation.completesPass Operation.perform
          rw [isOk_map, running, Bool.and_true]
      | false =>
          apply apart rfl
          · rw [Operation.perform, consistent.stepPass_of_idle running]
          · unfold Operation.completesPass
            rw [running, Bool.and_false]
  | advancePass limit =>
      cases running : system.isGenerating with
      | true =>
          have advances : Advances tables system system :=
            .inl ⟨running, booked, .refl system⟩
          refine reports_of_settles (Booked.advancePass advances limit) rfl ?_
          unfold Operation.completesPass Operation.perform
          rw [isOk_map, running, Bool.and_true]
      | false =>
          apply apart rfl
          · rw [Operation.perform, Development.advancePass, advancePassFrom_of_idle running]
          · unfold Operation.completesPass
            rw [running, Bool.and_false]
  | bind => exact apart rfl (rendering rfl) (Bool.and_false _)
  | unbind => exact apart rfl (rendering rfl) (Bool.and_false _)
  | render => exact apart rfl (rendering rfl) (Bool.and_false _)
  | beginRendering => exact apart rfl (rendering rfl) (Bool.and_false _)
  | stepRendering => exact apart rfl (rendering rfl) (Bool.and_false _)
  | advanceRendering => exact apart rfl (rendering rfl) (Bool.and_false _)

/-! ## Histories -/

/-- A system that has got on from another one without a reset. -/
structure GotOn (before after : Development V σ) : Prop where
  generation : before.generation ≤ after.generation
  unchanged : after.generation = before.generation → Unchanged before after
  /-- The next pass has visited all of the generation there was. -/
  visited : after.generation = before.generation + 1 →
    ∀ report, after.lastPass = some report → report.tally.visited = Forest.size before.current

theorem Unchanged.gotOn (unchanged : Unchanged system after) : GotOn system after where
  generation := Nat.le_of_eq unchanged.generation.symm
  unchanged _ := unchanged
  visited next := by
    rw [unchanged.generation] at next
    exact absurd next (Nat.ne_of_lt (Nat.lt_succ_self _))

theorem Completes.gotOn (completes : Completes tables system after) : GotOn system after where
  generation := by
    rw [completes.generation]
    exact Nat.le_succ _
  unchanged same := by
    rw [completes.generation] at same
    exact absurd same.symm (Nat.ne_of_lt (Nat.lt_succ_self _))
  visited _ report reported := by
    rcases completes.report with ⟨tally, last, balances⟩
    cases last.symm.trans reported
    exact balances.visited

theorem GotOn.trans {first second third : Development V σ} (earlier : GotOn first second)
    (later : GotOn second third) : GotOn first third where
  generation := Nat.le_trans earlier.generation later.generation
  unchanged same := by
    have upward := earlier.generation
    have onward := later.generation
    exact (earlier.unchanged (by omega)).trans (later.unchanged (by omega))
  visited next report reported := by
    have upward := earlier.generation
    have onward := later.generation
    -- The one pass there is has been completed in one part of the way or in the other.
    by_cases early : second.generation = first.generation
    · rw [← (earlier.unchanged early).current]
      exact later.visited (by omega) report reported
    · have idle := later.unchanged (by omega)
      rw [idle.lastPass] at reported
      exact earlier.visited (by omega) report reported

theorem gotOn_generateMany (passes : Nat) (system : Development V σ) :
    GotOn system (system.generateMany passes).2 := by
  induction passes generalizing system with
  | zero => exact (Unchanged.refl system).gotOn
  | succ passes inductionHypothesis =>
      have settles := settles_generate system
      rw [generateMany]
      rcases generated : system.generate with ⟨fault | ⟨⟩, after⟩
      · rw [generated] at settles
        exact settles.unchanged.gotOn
      · rw [generated] at settles
        exact settles.gotOn.trans (inductionHypothesis after)

theorem pass_generate (system : Development V σ) : system.generate.2.pass = none := by
  have settles := settles_generate system
  rcases generated : system.generate with ⟨fault | ⟨⟩, after⟩
  · rw [generated] at settles
    exact settles.pass
  · rw [generated] at settles
    exact settles.pass

theorem pass_generateMany (passes : Nat) (system : Development V σ) :
    (system.generateMany (passes + 1)).2.pass = none := by
  have first := system.pass_generate
  rw [generateMany]
  rcases generated : system.generate with ⟨fault | ⟨⟩, after⟩
  · rw [generated] at first
    exact first
  · rw [generated] at first
    apply generateMany_keeps (motive := fun after => after.pass = none) first
    intro before _
    exact before.pass_generate

/-- Several passes in a row leave no pass in progress, unless there were none of them. -/
theorem Booked.generateMany (booked : system.Booked tables) (passes : Nat) :
    (system.generateMany passes).2.Booked
      ((Operation.generateMany passes : Operation V σ).tables tables system) := by
  cases passes with
  | zero => exact booked
  | succ passes => exact booked_of_pass_eq_none (pass_generateMany passes system) _

/-- The last of several passes is a pass of its own. -/
theorem generateMany_succ (passes : Nat) (system : Development V σ) :
    system.generateMany (passes + 1) =
      match system.generateMany passes with
      | (.error fault, after) => (.error fault, after)
      | (.ok (), after) => after.generate := by
  induction passes generalizing system with
  | zero =>
      change _ = system.generate
      rw [generateMany]
      rcases system.generate with ⟨fault | ⟨⟩, after⟩ <;> rfl
  | succ passes inductionHypothesis =>
      rw [generateMany, generateMany]
      rcases system.generate with ⟨fault | ⟨⟩, after⟩
      · rfl
      · exact inductionHypothesis after

section Histories

variable {start : Forest V}

theorem Booked.perform_all (booked : system.Booked tables) (consistent : system.Consistent start)
    (operation : Operation V σ) :
    (operation.perform system).2.Booked (operation.tables tables system) := by
  by_cases single : operation ≠ .reset ∧ ∀ passes, operation ≠ .generateMany passes
  · exact (booked.perform consistent operation single).1
  · rw [not_and_or, not_ne_iff, not_forall] at single
    rcases single with rfl | ⟨passes, several⟩
    · exact booked_of_pass_eq_none rfl _
    · rw [not_ne_iff.mp several]
      exact booked.generateMany passes

theorem gotOn_perform (booked : system.Booked tables) (consistent : system.Consistent start)
    {operation : Operation V σ} (goesOn : operation ≠ .reset) :
    GotOn system (operation.perform system).2 := by
  by_cases several : ∃ passes, operation = .generateMany passes
  · rcases several with ⟨passes, rfl⟩
    exact gotOn_generateMany passes system
  · rw [not_exists] at several
    have reports := (booked.perform consistent operation ⟨goesOn, several⟩).2
    cases completed : operation.completesPass system with
    | true => exact (reports.completes completed).gotOn
    | false => exact (reports.unchanged completed).gotOn

/-- Whatever a host does, the pass in progress is kept track of. -/
theorem Booked.performAll (booked : system.Booked tables) (consistent : system.Consistent start)
    (operations : List (Operation V σ)) :
    (Operation.performAll operations system).Booked
      (Operation.tablesAlong tables operations system) := by
  induction operations generalizing tables system with
  | nil => exact booked
  | cons operation rest inductionHypothesis =>
      exact inductionHypothesis (booked.perform_all consistent operation)
        (consistent.perform operation)

theorem gotOn_performAll (booked : system.Booked tables) (consistent : system.Consistent start)
    {operations : List (Operation V σ)} (goesOn : .reset ∉ operations) :
    GotOn system (Operation.performAll operations system) := by
  induction operations generalizing tables system with
  | nil => exact (Unchanged.refl system).gotOn
  | cons operation rest inductionHypothesis =>
      rw [List.mem_cons, not_or] at goesOn
      have first := gotOn_perform booked consistent (Ne.symm goesOn.1)
      exact first.trans (inductionHypothesis (booked.perform_all consistent operation)
        (consistent.perform operation) goesOn.2)

end Histories

/-! ## Passes of a history -/

/-- What it means that the reports of a system can be relied on, when a history has left the
system with a pass whose steps are for certain tables. -/
structure KeepsAccounts (tables : Nat → RuleTable V) (system : Development V σ) : Prop where
  /-- Whenever an operation completes a pass, the report of that pass balances. -/
  completes : ∀ operation : Operation V σ, operation.completesPass system = true →
    Completes (operation.tables tables system) system (operation.perform system).2
  /-- No other operation makes a generation, except for a reset and for several passes. -/
  unchanged : ∀ operation : Operation V σ, operation.completesPass system = false →
    operation ≠ .reset → (∀ passes, operation ≠ .generateMany passes) →
    Unchanged system (operation.perform system).2
  /-- Several passes are one pass after the other. -/
  several : ∀ passes, system.generateMany (passes + 1) =
    match system.generateMany passes with
    | (.error fault, after) => (.error fault, after)
    | (.ok (), after) => after.generate
  /-- Without a reset, the pass that follows one that has been reported visits as many
  elements as that one has counted. -/
  next : ∀ (later : List (Operation V σ)) earlier report, .reset ∉ later →
    system.lastPass = some earlier →
    (Operation.performAll later system).lastPass = some report →
    report.generation = earlier.generation + 1 →
    report.tally.visited = earlier.tally.moduleCount

/-- Whatever a host has done with a system, its reports can be relied on. -/
theorem keepsAccounts_performAll {start : Forest V} {rules : List (Rule V)}
    {ignore : List Symbol} {actions : Actions V σ} {host : σ} {chance : Chance}
    {first : Development V σ}
    (created : create start rules ignore actions host chance = .ok first)
    (history : List (Operation V σ)) :
    KeepsAccounts (Operation.tablesAlong (fun _ => first.rules) history first)
      (Operation.performAll history first) := by
  have fresh := consistent_create created
  have idle : first.pass = none := by
    rcases create_eq_ok created with ⟨-, table, -, rfl⟩
    rfl
  have booked := (booked_of_pass_eq_none idle fun _ => first.rules).performAll fresh history
  have consistent := fresh.performAll history
  exact {
    completes := by
      intro operation completed
      have single : operation ≠ .reset ∧ ∀ passes, operation ≠ .generateMany passes := by
        constructor
        · rintro rfl
          cases (Bool.and_false _).symm.trans completed
        · rintro passes rfl
          cases (Bool.and_false _).symm.trans completed
      exact (booked.perform consistent operation single).2.completes completed
    unchanged := by
      intro operation uncompleted notReset notSeveral
      exact (booked.perform consistent operation ⟨notReset, notSeveral⟩).2.unchanged uncompleted
    several := by
      intro passes
      exact generateMany_succ passes _
    next := by
      intro later earlier report goesOn before after following
      have agreesBefore := consistent.lastPass_agrees earlier before
      have agreesAfter := (consistent.performAll later).lastPass_agrees report after
      have gotOn := gotOn_performAll booked consistent goesOn
      rw [gotOn.visited (by omega) report after, agreesBefore.2, consistent.moduleCount_eq] }

/-- A weed is given other rules in the middle of its second pass, which has been begun twice
and is completed while a rendering is in progress. -/
theorem weed_keepsAccounts :
    (Operation.advancePass 99).completesPass (Operation.performAll
        [.generate, .beginPass, .stepPass, .beginPass, .setRules Catalog.koch.rules,
          .advancePass 2, .beginRendering] (weed [0.3, 0.6])) = true ∧
      KeepsAccounts
        (Operation.tablesAlong (fun _ => (weed [0.3, 0.6]).rules)
          [.generate, .beginPass, .stepPass, .beginPass, .setRules Catalog.koch.rules,
            .advancePass 2, .beginRendering] (weed [0.3, 0.6]))
        (Operation.performAll
          [.generate, .beginPass, .stepPass, .beginPass, .setRules Catalog.koch.rules,
            .advancePass 2, .beginRendering] (weed [0.3, 0.6])) :=
  ⟨by decide, keepsAccounts_performAll (create_weed [0.3, 0.6]) _⟩

end Development
end LSystem
