import LSystem.Demo.CommandLine
import Mathlib.Data.List.Basic
import Mathlib.Data.List.Induction

namespace LSystem

/-!
# Reading the arguments

Whether an argument is an option, the value of one or the name of a grammar depends on all
arguments before it.  So the arguments are cut into groups first, each of which starts where
an option may stand.  What has been chosen by some groups can be told from them without any
reading, and a group that decides nothing leads from what was chosen before it to what is
chosen with it.  Main statement: the leftmost group that decides the answer does so, and
without one the last group of each kind counts.
-/

/-! ## Groups -/

/-- The name of a grammar, or an option together with its value. -/
inductive ArgumentGroup where
  | help
  | version
  | color (wanted : Bool)
  | given (setting : Setting) (value : String)
  /-- An option whose value is missing. -/
  | dangling (setting : Setting)
  | unknown (argument : String)
  | positional (argument : String)
deriving DecidableEq

namespace ArgumentGroup

/-- What an argument is where an option may stand, with nothing behind it. -/
def ofArgument (argument : String) : ArgumentGroup :=
  let (name, inlined) := splitInline argument
  match Flag.ofName? name, inlined with
  | some .help, _ => .help
  | some .version, _ => .version
  | some (.color wanted), _ => .color wanted
  | some (.setting setting), some value => .given setting value
  | some (.setting setting), none => .dangling setting
  | none, _ => if argument.startsWith "-" then .unknown argument else .positional argument

/-- Cuts arguments into groups.  An option that lacks its value takes the next argument. -/
def cut : List String → List ArgumentGroup
  | [] => []
  | argument :: rest =>
      match ofArgument argument, rest with
      | .dangling setting, value :: rest => .given setting value :: cut rest
      | group, rest => group :: cut rest

/-- An option may stand behind these arguments: none of them still lacks its value. -/
def IsWhole (arguments : List String) : Prop :=
  ∀ setting, .dangling setting ∉ cut arguments

section Cut

variable {argument : String} {setting : Setting}

theorem cut_of_dangling (opens : ofArgument argument = .dangling setting) (value : String)
    (rest : List String) : cut (argument :: value :: rest) = .given setting value :: cut rest := by
  rw [cut]
  exact opens

theorem cut_of_lacking (opens : ofArgument argument = .dangling setting) :
    cut [argument] = [.dangling setting] := by
  rw [cut, opens]
  · rfl
  · nofun

theorem cut_of_complete (complete : ∀ setting, ofArgument argument ≠ .dangling setting)
    (rest : List String) : cut (argument :: rest) = ofArgument argument :: cut rest := by
  rw [cut]
  intro setting value others opens
  exact absurd opens (complete setting)

/-- Whatever does not lack a value is a group by itself. -/
theorem cut_of_reads {group : ArgumentGroup} (reads : ofArgument argument = group)
    (complete : ∀ setting, group ≠ .dangling setting) (rest : List String) :
    cut (argument :: rest) = group :: cut rest := by
  subst reads
  exact cut_of_complete complete rest

/-- Groups are told from the left, one after another. -/
theorem induction {motive : List String → Prop} (nil : motive [])
    (valued : ∀ argument setting value rest, ofArgument argument = .dangling setting →
      motive rest → motive (argument :: value :: rest))
    (lacking : ∀ argument setting, ofArgument argument = .dangling setting → motive [argument])
    (complete : ∀ argument rest, (∀ setting, ofArgument argument ≠ .dangling setting) →
      motive rest → motive (argument :: rest)) (arguments : List String) : motive arguments := by
  fun_induction cut arguments with
  | case1 => exact nil
  | case2 argument setting value rest opens inRest => exact valued _ _ _ _ opens inRest
  | case3 argument rest otherwise inRest =>
      by_cases opens : ∃ setting, ofArgument argument = .dangling setting
      · rcases opens with ⟨setting, opens⟩
        cases rest with
        | nil => exact lacking _ _ opens
        | cons value rest => exact (otherwise _ _ _ opens rfl).elim
      · exact complete _ _ (not_exists.mp opens) inRest

end Cut

/-- Groups that are complete are the same ones whatever stands behind them. -/
theorem cut_append {before : List String} (whole : IsWhole before) (rest : List String) :
    cut (before ++ rest) = cut before ++ cut rest := by
  unfold IsWhole at whole
  induction before using induction with
  | nil => rfl
  | valued argument setting value before opens inductionHypothesis =>
      rw [cut_of_dangling opens] at whole
      have further := inductionHypothesis fun other member =>
        whole other (List.mem_cons_of_mem _ member)
      rw [List.cons_append, List.cons_append, cut_of_dangling opens, cut_of_dangling opens,
        further, List.cons_append]
  | lacking argument setting opens =>
      rw [cut_of_lacking opens] at whole
      exact absurd List.mem_cons_self (whole setting)
  | complete argument before complete inductionHypothesis =>
      rw [cut_of_complete complete] at whole
      have further := inductionHypothesis fun other member =>
        whole other (List.mem_cons_of_mem _ member)
      rw [List.cons_append, cut_of_complete complete, cut_of_complete complete, further,
        List.cons_append]

end ArgumentGroup

/-! ## Spellings -/

/-- A long name in front of an equals sign is told from the text behind it, whatever signs
that text contains. -/
theorem splitInline_append {name : String} (letters : List Char)
    (long : name.toList = '-' :: '-' :: letters) (plain : '=' ∉ letters) (value : String) :
    splitInline (name ++ "=" ++ value) = (name, some value) := by
  have characters : (name ++ "=" ++ value).toList = name.toList ++ '=' :: value.toList := by
    rw [String.toList_append, String.toList_append, List.append_assoc]
    rfl
  have none : ∀ character ∈ name.toList, decide (character ≠ '=') = true := by
    intro character member
    rw [decide_eq_true_iff]
    rintro rfl
    rw [long] at member
    simp [plain] at member
  have ahead : (name.toList ++ '=' :: value.toList).takeWhile (· ≠ '=') = name.toList := by
    rw [List.takeWhile_append_of_pos none]
    exact List.append_nil _
  have behind : (name.toList ++ '=' :: value.toList).dropWhile (· ≠ '=') =
      '=' :: value.toList := by
    rw [List.dropWhile_append_of_pos none]
    rfl
  unfold splitInline
  rw [characters]
  dsimp only
  rw [ahead, behind, String.ofList_toList, long]
  exact congrArg (fun text => (name, some text)) String.ofList_toList

namespace ArgumentGroup

theorem ofArgument_name (setting : Setting) : ofArgument setting.name = .dangling setting := by
  cases setting <;> decide

theorem ofArgument_short : ofArgument "-n" = .dangling .generations := by decide

theorem ofArgument_inlined (setting : Setting) (value : String) :
    ofArgument (setting.name ++ "=" ++ value) = .given setting value := by
  have split : splitInline (setting.name ++ "=" ++ value) = (setting.name, some value) := by
    cases setting with
    | generations => exact splitInline_append "generations".toList rfl (by decide) value
    | seed => exact splitInline_append "seed".toList rfl (by decide) value
    | indent => exact splitInline_append "indent".toList rfl (by decide) value
    | chunk => exact splitInline_append "chunk".toList rfl (by decide) value
  have known : Flag.ofName? setting.name = some (.setting setting) := by cases setting <;> rfl
  rw [ofArgument, split]
  dsimp only
  rw [known]

end ArgumentGroup

/-! ## What is chosen -/

namespace ArgumentGroup

/-- The value that a group gives to an option. -/
def value? (setting : Setting) : ArgumentGroup → Option String
  | .given other value => if other = setting then some value else none
  | _ => none

def color? : ArgumentGroup → Option Bool
  | .color wanted => some wanted
  | _ => none

def positional? : ArgumentGroup → Option String
  | .positional argument => some argument
  | _ => none

end ArgumentGroup

namespace Choices

open ArgumentGroup

/-- What some groups come to: of each kind the last one counts. -/
def ofGroups (terminal : Bool) (groups : List ArgumentGroup) : Choices where
  generations := (groups.filterMap (value? .generations)).getLast?.bind readNumber?
  seed := (groups.filterMap (value? .seed)).getLast?.bind readNumber?
  indent := (groups.filterMap (value? .indent)).getLast?
  chunk := (groups.filterMap (value? .chunk)).getLast?.bind readNumber?
  color := (groups.filterMap color?).getLast?.getD terminal
  grammar := (groups.filterMap positional?).getLast?

/-- Reads groups of arguments. -/
def readGroups (choices : Choices) : List ArgumentGroup → Except UsageError Request
  | [] => choices.complete
  | .help :: _ => .ok .help
  | .version :: _ => .ok .version
  | .color wanted :: rest => readGroups { choices with color := wanted } rest
  | .given setting value :: rest =>
      match choices.assign setting value with
      | .error error => .error error
      | .ok choices => readGroups choices rest
  | .dangling setting :: _ => .error (.missingValue setting)
  | .unknown argument :: _ => .error (.unknownOption argument)
  | .positional argument :: rest =>
      if choices.grammar.isSome then .error .repeatedGrammar
      else readGroups { choices with grammar := some argument } rest

/-- Arguments are read group by group. -/
theorem read_eq (choices : Choices) (arguments : List String) :
    choices.read arguments = choices.readGroups (cut arguments) := by
  -- Each way that the reading goes on has a group of its own, which is read in the same way.
  fun_induction read choices arguments with
  | case1 choices => rw [cut, readGroups]
  | case2 choices argument rest name inlined split help =>
      have reads : ofArgument argument = .help := by simp only [ofArgument, split, help]
      rw [cut_of_reads reads nofun, readGroups]
  | case3 choices argument rest name inlined split version =>
      have reads : ofArgument argument = .version := by simp only [ofArgument, split, version]
      rw [cut_of_reads reads nofun, readGroups]
  | case4 choices argument rest name inlined split wanted color inductionHypothesis =>
      have reads : ofArgument argument = .color wanted := by simp only [ofArgument, split, color]
      rw [cut_of_reads reads nofun, readGroups]
      exact inductionHypothesis
  -- A value behind the equals sign is refused or taken over.
  | case5 choices argument name setting known value rest error refused split =>
      have reads : ofArgument argument = .given setting value := by
        simp only [ofArgument, split, known]
      rw [cut_of_reads reads nofun, readGroups, refused]
  | case6 choices argument name setting known value rest assigned accepted split
      inductionHypothesis =>
      have reads : ofArgument argument = .given setting value := by
        simp only [ofArgument, split, known]
      rw [cut_of_reads reads nofun, readGroups, accepted]
      exact inductionHypothesis
  -- So is the next argument, if there is one.
  | case7 choices argument name setting known value rest error refused split =>
      have reads : ofArgument argument = .dangling setting := by
        simp only [ofArgument, split, known]
      rw [cut_of_dangling reads, readGroups, refused]
  | case8 choices argument name setting known value rest assigned accepted split
      inductionHypothesis =>
      have reads : ofArgument argument = .dangling setting := by
        simp only [ofArgument, split, known]
      rw [cut_of_dangling reads, readGroups, accepted]
      exact inductionHypothesis
  | case9 choices argument name setting known split =>
      have reads : ofArgument argument = .dangling setting := by
        simp only [ofArgument, split, known]
      rw [cut_of_lacking reads, readGroups]
  | case10 choices argument rest name inlined split unnamed dash =>
      have reads : ofArgument argument = .unknown argument := by
        simp only [ofArgument, split, unnamed, if_pos dash]
      rw [cut_of_reads reads nofun, readGroups]
  | case11 choices argument rest name inlined split unnamed plain repeated =>
      have reads : ofArgument argument = .positional argument := by
        simp only [ofArgument, split, unnamed, if_neg plain]
      rw [cut_of_reads reads nofun, readGroups, if_pos repeated]
  | case12 choices argument rest name inlined split unnamed plain once inductionHypothesis =>
      have reads : ofArgument argument = .positional argument := by
        simp only [ofArgument, split, unnamed, if_neg plain]
      rw [cut_of_reads reads nofun, readGroups, if_neg once]
      exact inductionHypothesis

end Choices

/-! ## What is decided -/

namespace ArgumentGroup

/-- The answer that a group decides wherever it stands. -/
inductive Ends : ArgumentGroup → Except UsageError Request → Prop where
  | help : Ends .help (.ok .help)
  | version : Ends .version (.ok .version)
  | invalid {setting : Setting} {value : String} (numeric : setting ≠ .indent)
      (unreadable : readNumber? value = none) :
      Ends (.given setting value) (.error (.invalidNumber setting value))
  | empty {value : String} (zero : readNumber? value = some 0) :
      Ends (.given .chunk value) (.error .emptyChunk)
  | dangling (setting : Setting) : Ends (.dangling setting) (.error (.missingValue setting))
  | unknown (argument : String) : Ends (.unknown argument) (.error (.unknownOption argument))

/-- The answer that a group decides behind others.  Only that a grammar is the second one
depends on them. -/
inductive Decides (before : List ArgumentGroup) :
    ArgumentGroup → Except UsageError Request → Prop where
  | alone {group : ArgumentGroup} {answer : Except UsageError Request}
      (ends : Ends group answer) : Decides before group answer
  | repeated (argument : String) (earlier : before.filterMap positional? ≠ []) :
      Decides before (.positional argument) (.error .repeatedGrammar)

/-- None of the groups decides anything. -/
def Undecided (groups : List ArgumentGroup) : Prop :=
  ∀ before group after answer, groups = before ++ group :: after →
    ¬ Decides before group answer

end ArgumentGroup

namespace Choices

open ArgumentGroup

variable {terminal : Bool} {before : List ArgumentGroup} {group : ArgumentGroup}
  {answer : Except UsageError Request}

/-- Whatever has been chosen, a group that ends the reading does so with its answer. -/
theorem readGroups_of_ends (ends : Ends group answer) (choices : Choices)
    (rest : List ArgumentGroup) : choices.readGroups (group :: rest) = answer := by
  cases ends with
  | help => rfl
  | version => rfl
  | @invalid setting value numeric unreadable =>
      have refused : choices.assign setting value = .error (.invalidNumber setting value) := by
        cases setting with
        | indent => exact absurd rfl numeric
        | generations => rw [assign, number, unreadable]; rfl
        | seed => rw [assign, number, unreadable]; rfl
        | chunk => rw [assign, number, unreadable]; rfl
      rw [readGroups, refused]
  | empty zero =>
      rw [readGroups, assign, number, zero]
      rfl
  | dangling => rfl
  | unknown => rfl

/-- A group that decides the answer ends the reading. -/
theorem readGroups_of_decides (decides : Decides before group answer)
    (rest : List ArgumentGroup) :
    (ofGroups terminal before).readGroups (group :: rest) = answer := by
  cases decides with
  | alone ends => exact readGroups_of_ends ends _ rest
  | repeated argument earlier =>
      have taken : (ofGroups terminal before).grammar.isSome = true := by
        rw [Option.isSome_iff_ne_none]
        exact mt List.getLast?_eq_none_iff.mp earlier
      rw [readGroups, if_pos taken]

/-- An option whose value decides nothing takes it over. -/
theorem assign_of_not_decides {setting : Setting} {value : String}
    (undecided : ∀ answer, ¬ Decides before (.given setting value) answer) :
    (ofGroups terminal before).assign setting value =
      .ok (ofGroups terminal (before ++ [.given setting value])) := by
  have readable (numeric : setting ≠ .indent) : ∃ number, readNumber? value = some number := by
    rw [← Option.isSome_iff_exists, Option.isSome_iff_ne_none]
    intro unreadable
    exact undecided _ (.alone (.invalid numeric unreadable))
  cases setting with
  | indent => simp [assign, ofGroups, value?, color?, positional?]
  | generations =>
      rcases readable nofun with ⟨number, isNumber⟩
      simp [assign, Choices.number, isNumber, Except.map, ofGroups, value?, color?, positional?]
  | seed =>
      rcases readable nofun with ⟨number, isNumber⟩
      simp [assign, Choices.number, isNumber, Except.map, ofGroups, value?, color?, positional?]
  | chunk =>
      rcases readable nofun with ⟨number, isNumber⟩
      have some : number ≠ 0 := by
        intro zero
        rw [zero] at isNumber
        exact undecided _ (.alone (.empty isNumber))
      simp [assign, Choices.number, isNumber, some, Except.bind, ofGroups, value?, color?,
        positional?]

/-- Another group leads from what was chosen before it to what is chosen with it. -/
theorem readGroups_of_not_decides (undecided : ∀ answer, ¬ Decides before group answer)
    (rest : List ArgumentGroup) :
    (ofGroups terminal before).readGroups (group :: rest) =
      (ofGroups terminal (before ++ [group])).readGroups rest := by
  cases group with
  | help => exact absurd (.alone .help) (undecided _)
  | version => exact absurd (.alone .version) (undecided _)
  | dangling setting => exact absurd (.alone (.dangling setting)) (undecided _)
  | unknown argument => exact absurd (.alone (.unknown argument)) (undecided _)
  | color wanted => simp [readGroups, ofGroups, color?, value?, positional?]
  | given setting value => rw [readGroups, assign_of_not_decides undecided]
  | positional argument =>
      have first : before.filterMap positional? = [] := by
        by_contra earlier
        exact undecided _ (.repeated argument earlier)
      simp [readGroups, ofGroups, color?, value?, positional?, first]

end Choices

/-! ## The leftmost decision -/

namespace ArgumentGroup

variable {before groups : List ArgumentGroup} {group : ArgumentGroup}

theorem undecided_nil : Undecided [] := by
  intro before group after answer split
  cases before <;> cases split

theorem undecided_concat_iff :
    Undecided (groups ++ [group]) ↔
      Undecided groups ∧ ∀ answer, ¬ Decides groups group answer := by
  constructor
  · intro undecided
    constructor
    · intro before other after answer split
      apply undecided before other (after ++ [group]) answer
      rw [split, List.append_assoc, List.cons_append]
    · intro answer
      exact undecided groups group [] answer rfl
  · rintro ⟨undecided, last⟩ before other after answer split
    -- The group in question is the last one or one of the others.
    rcases List.eq_nil_or_concat after with rfl | ⟨others, final, rfl⟩
    · rcases List.append_inj' split rfl with ⟨rfl, same⟩
      cases same
      exact last answer
    · rw [List.concat_eq_append, ← List.cons_append, ← List.append_assoc] at split
      exact undecided before other others answer (List.append_inj' split rfl).1

/-- If there is a decision, then there is a leftmost one. -/
theorem undecided_or_decided (groups : List ArgumentGroup) :
    Undecided groups ∨ ∃ before group after answer, groups = before ++ group :: after ∧
      Undecided before ∧ Decides before group answer := by
  induction groups using List.reverseRecOn with
  | nil => exact .inl undecided_nil
  | append_singleton groups group inductionHypothesis =>
      rcases inductionHypothesis with undecided | ⟨before, other, after, answer, rfl, decided⟩
      · by_cases last : ∃ answer, Decides groups group answer
        · rcases last with ⟨answer, decides⟩
          exact .inr ⟨groups, group, [], answer, rfl, undecided, decides⟩
        · exact .inl (undecided_concat_iff.mpr ⟨undecided, not_exists.mp last⟩)
      · refine .inr ⟨before, other, after ++ [group], answer, ?_, decided⟩
        rw [List.append_assoc, List.cons_append]

theorem forall_not_decides_iff :
    (∀ answer, ¬ Decides before group answer) ↔
      (∀ answer, ¬ Ends group answer) ∧
        (group.positional? = none ∨ before.filterMap positional? = []) := by
  constructor
  · intro undecided
    constructor
    · intro answer ends
      exact undecided answer (.alone ends)
    · cases group with
      | positional argument =>
          exact .inr (by_contra fun earlier => undecided _ (.repeated argument earlier))
      | _ => exact .inl rfl
  · rintro ⟨unended, unrepeated⟩ answer decides
    cases decides with
    | alone ends => exact unended answer ends
    | repeated argument earlier =>
        rcases unrepeated with other | none
        · cases other
        · exact earlier none

/-- Whether something is decided does not depend on the order of the groups. -/
theorem undecided_iff (groups : List ArgumentGroup) :
    Undecided groups ↔
      (∀ group ∈ groups, ∀ answer, ¬ Ends group answer) ∧
        (groups.filterMap positional?).length ≤ 1 := by
  induction groups using List.reverseRecOn with
  | nil => exact iff_of_true undecided_nil ⟨nofun, Nat.zero_le _⟩
  | append_singleton groups group inductionHypothesis =>
      rw [undecided_concat_iff, inductionHypothesis, forall_not_decides_iff, List.forall_mem_append,
        List.forall_mem_singleton, List.filterMap_append, List.length_append]
      cases grammar : group.positional? with
      | none =>
          rw [List.filterMap_cons_none grammar]
          tauto
      | some argument =>
          rw [List.filterMap_cons_some grammar, List.filterMap_nil, List.length_singleton,
            Nat.succ_le_succ_iff, Nat.le_zero, List.length_eq_zero_iff]
          constructor
          · rintro ⟨⟨others, -⟩, alone, none | first⟩
            · cases none
            · exact ⟨⟨others, alone⟩, first⟩
          · rintro ⟨⟨others, alone⟩, first⟩
            exact ⟨⟨others, first ▸ Nat.zero_le 1⟩, alone, .inr first⟩

end ArgumentGroup

/-! ## Answers -/

namespace Request

open ArgumentGroup

variable {terminal : Bool} {arguments : List String}

theorem ofArguments_eq (terminal : Bool) (arguments : List String) :
    ofArguments terminal arguments = (Choices.initial terminal).readGroups (cut arguments) :=
  (Choices.initial terminal).read_eq arguments

/-- Groups that decide nothing are left behind with what they have chosen. -/
theorem readGroups_append (terminal : Bool) {before : List ArgumentGroup}
    (undecided : Undecided before) (rest : List ArgumentGroup) :
    (Choices.initial terminal).readGroups (before ++ rest) =
      (Choices.ofGroups terminal before).readGroups rest := by
  induction before using List.reverseRecOn generalizing rest with
  | nil => rfl
  | append_singleton before group inductionHypothesis =>
      rcases undecided_concat_iff.mp undecided with ⟨earlier, last⟩
      rw [List.append_assoc, List.singleton_append, inductionHypothesis earlier,
        Choices.readGroups_of_not_decides last]

theorem ofArguments_of_decided {before after : List ArgumentGroup} {group : ArgumentGroup}
    {answer : Except UsageError Request} (groups : cut arguments = before ++ group :: after)
    (undecided : Undecided before) (decides : Decides before group answer) :
    ofArguments terminal arguments = answer := by
  rw [ofArguments_eq, groups, readGroups_append terminal undecided,
    Choices.readGroups_of_decides decides]

theorem ofArguments_of_undecided (undecided : Undecided (cut arguments)) :
    ofArguments terminal arguments = (Choices.ofGroups terminal (cut arguments)).complete := by
  have read := readGroups_append terminal undecided []
  rw [List.append_nil] at read
  exact (ofArguments_eq terminal arguments).trans read

/-- Without a decision the answer depends on the grammar that has been given. -/
theorem complete_ofGroups (terminal : Bool) {groups : List ArgumentGroup}
    (undecided : Undecided groups) :
    (Choices.ofGroups terminal groups).complete =
      match groups.filterMap positional? with
      | [] => .error .missingGrammar
      | grammar :: _ =>
          .ok (.run ⟨(Choices.ofGroups terminal groups).toPreferences, grammar⟩) := by
  have few := ((undecided_iff groups).mp undecided).2
  have last : (Choices.ofGroups terminal groups).grammar =
      (groups.filterMap positional?).getLast? := rfl
  rw [Choices.complete, last]
  rcases positionals : groups.filterMap positional? with _ | ⟨grammar, _ | ⟨another, more⟩⟩
  · rfl
  · rfl
  · rw [positionals, List.length_cons, List.length_cons] at few
    omega

/-- A run is answered if there is one grammar and nothing else decides the answer. -/
theorem ofArguments_eq_run_iff {configuration : Configuration} :
    ofArguments terminal arguments = .ok (.run configuration) ↔
      Undecided (cut arguments) ∧
        (cut arguments).filterMap positional? = [configuration.grammar] ∧
        configuration.toPreferences =
          (Choices.ofGroups terminal (cut arguments)).toPreferences := by
  rcases undecided_or_decided (cut arguments) with
    undecided | ⟨before, group, after, answer, groups, undecided, decides⟩
  · have few := ((undecided_iff _).mp undecided).2
    rw [ofArguments_of_undecided undecided, complete_ofGroups terminal undecided]
    rcases positionals : (cut arguments).filterMap positional? with
      _ | ⟨grammar, _ | ⟨another, more⟩⟩
    · constructor
      · nofun
      · nofun
    · constructor
      · rintro ⟨⟩
        exact ⟨undecided, rfl, rfl⟩
      · rintro ⟨-, same, preferences⟩
        cases same
        rw [← preferences]
    · rw [positionals, List.length_cons, List.length_cons] at few
      omega
  · rw [ofArguments_of_decided groups undecided decides]
    constructor
    · rintro rfl
      rcases decides with ⟨⟨⟩⟩
    · rintro ⟨whole, -⟩
      exact absurd decides (whole before group after answer groups)

/-- The leftmost decision is the only one that can be a fault, besides a missing grammar. -/
theorem ofArguments_eq_error_iff {error : UsageError} :
    ofArguments terminal arguments = .error error ↔
      (∃ before group after, cut arguments = before ++ group :: after ∧ Undecided before ∧
        Decides before group (.error error)) ∨
      Undecided (cut arguments) ∧ (cut arguments).filterMap positional? = [] ∧
        error = .missingGrammar := by
  constructor
  · intro answered
    rcases undecided_or_decided (cut arguments) with
      undecided | ⟨before, group, after, answer, groups, undecided, decides⟩
    · rw [ofArguments_of_undecided undecided, complete_ofGroups terminal undecided] at answered
      refine .inr ⟨undecided, ?_⟩
      rcases positionals : (cut arguments).filterMap positional? with _ | ⟨grammar, more⟩
      · rw [positionals] at answered
        cases answered
        exact ⟨rfl, rfl⟩
      · rw [positionals] at answered
        cases answered
    · rw [ofArguments_of_decided groups undecided decides] at answered
      exact .inl ⟨before, group, after, groups, undecided, answered ▸ decides⟩
  · rintro (⟨before, group, after, groups, undecided, decides⟩ | ⟨undecided, none, rfl⟩)
    · exact ofArguments_of_decided groups undecided decides
    · rw [ofArguments_of_undecided undecided, complete_ofGroups terminal undecided, none]

end Request

/-! ## From left to right -/

/-- What a choice is about. -/
inductive Concern where
  | setting (setting : Setting)
  | color
  | grammar
deriving DecidableEq

/-- The choice that a group makes, if it makes one. -/
def ArgumentGroup.concern? : ArgumentGroup → Option Concern
  | .color _ => some .color
  | .given setting _ => some (.setting setting)
  | .positional _ => some .grammar
  | _ => none

namespace ArgumentGroup

/-- Two lists of groups make the same choices in the same order, as far as each single choice
is concerned. -/
def Regrouped (groups others : List ArgumentGroup) : Prop :=
  ∀ concern : Option Concern,
    others.filter (·.concern? = concern) = groups.filter (·.concern? = concern)

variable {groups others : List ArgumentGroup}

theorem Regrouped.mem_iff (regrouped : Regrouped groups others) (group : ArgumentGroup) :
    group ∈ others ↔ group ∈ groups := by
  have same := congrArg (group ∈ ·) (regrouped group.concern?)
  simpa using same

/-- Whatever is read off the groups of one concern only is the same. -/
theorem Regrouped.filterMap_eq {α : Type} (regrouped : Regrouped groups others)
    (concern : Concern) {told : ArgumentGroup → Option α}
    (only : ∀ group, group.concern? ≠ some concern → told group = none) :
    others.filterMap told = groups.filterMap told := by
  have filtered (list : List ArgumentGroup) :
      list.filterMap told = (list.filter (·.concern? = some concern)).filterMap told := by
    rw [List.filterMap_filter]
    apply List.filterMap_congr
    intro group _
    by_cases about : group.concern? = some concern
    · rw [if_pos (decide_eq_true about)]
    · rw [only group about, ite_self]
  rw [filtered others, filtered groups, regrouped]

theorem Regrouped.values_eq (regrouped : Regrouped groups others) (setting : Setting) :
    others.filterMap (value? setting) = groups.filterMap (value? setting) := by
  apply regrouped.filterMap_eq (.setting setting)
  intro group other
  cases group with
  | given option value =>
      apply if_neg
      rintro rfl
      exact other rfl
  | _ => rfl

theorem Regrouped.colors_eq (regrouped : Regrouped groups others) :
    others.filterMap color? = groups.filterMap color? := by
  apply regrouped.filterMap_eq .color
  intro group other
  cases group with
  | color wanted => exact absurd rfl other
  | _ => rfl

theorem Regrouped.positionals_eq (regrouped : Regrouped groups others) :
    others.filterMap positional? = groups.filterMap positional? := by
  apply regrouped.filterMap_eq .grammar
  intro group other
  cases group with
  | positional argument => exact absurd rfl other
  | _ => rfl

theorem Regrouped.ofGroups_eq (regrouped : Regrouped groups others) (terminal : Bool) :
    Choices.ofGroups terminal others = Choices.ofGroups terminal groups := by
  rw [Choices.ofGroups, regrouped.values_eq, regrouped.values_eq, regrouped.values_eq,
    regrouped.values_eq, regrouped.colors_eq, regrouped.positionals_eq]
  rfl

theorem Regrouped.undecided_iff (regrouped : Regrouped groups others) :
    Undecided others ↔ Undecided groups := by
  rw [ArgumentGroup.undecided_iff, ArgumentGroup.undecided_iff, regrouped.positionals_eq]
  simp only [regrouped.mem_iff]

/-- Neighbouring groups of different concerns may change places. -/
theorem regrouped_swap {first second : List ArgumentGroup} (before after : List ArgumentGroup)
    (apart : ∀ group ∈ first, ∀ other ∈ second, group.concern? ≠ other.concern?) :
    Regrouped (before ++ (first ++ (second ++ after)))
      (before ++ (second ++ (first ++ after))) := by
  intro concern
  have either : first.filter (·.concern? = concern) = [] ∨
      second.filter (·.concern? = concern) = [] := by
    rw [List.filter_eq_nil_iff, List.filter_eq_nil_iff]
    by_contra both
    push Not at both
    rcases both with ⟨⟨group, inFirst, here⟩, other, inSecond, there⟩
    exact apart group inFirst other inSecond
      ((of_decide_eq_true here).trans (of_decide_eq_true there).symm)
  rw [List.filter_append, List.filter_append, List.filter_append, List.filter_append,
    List.filter_append, List.filter_append]
  rcases either with none | none
  · rw [none, List.nil_append, List.nil_append]
  · rw [none, List.nil_append, List.nil_append]

end ArgumentGroup

namespace Request

open ArgumentGroup

variable {terminal : Bool} {arguments : List String}

/-- What it means that arguments are read from left to right. -/
structure ReadsInOrder (terminal : Bool) (arguments : List String) : Prop where
  /-- Where an option may stand, its value may as well stand behind an equals sign. -/
  inlined : ∀ before (setting : Setting) value after, IsWhole before →
    arguments = before ++ setting.name :: value :: after →
    ofArguments terminal arguments =
      ofArguments terminal (before ++ (setting.name ++ "=" ++ value) :: after)
  abbreviated : ∀ before value after, IsWhole before →
    arguments = before ++ "-n" :: value :: after →
    ofArguments terminal arguments =
      ofArguments terminal (before ++ "--generations" :: value :: after)
  /-- A run has been given a single grammar, and of each option the last value. -/
  given : ∀ configuration, ofArguments terminal arguments = .ok (.run configuration) →
    (cut arguments).filterMap positional? = [configuration.grammar] ∧
      configuration.generations =
        ((cut arguments).filterMap (value? .generations)).getLast?.bind readNumber? ∧
      configuration.seed = ((cut arguments).filterMap (value? .seed)).getLast?.bind readNumber? ∧
      configuration.indent = ((cut arguments).filterMap (value? .indent)).getLast? ∧
      configuration.chunk =
        ((cut arguments).filterMap (value? .chunk)).getLast?.bind readNumber? ∧
      configuration.color = ((cut arguments).filterMap color?).getLast?.getD terminal
  chunked : ∀ configuration, ofArguments terminal arguments = .ok (.run configuration) →
    configuration.chunk ≠ some 0
  /-- Groups may be put into another order, as long as those of one concern keep theirs. -/
  reordered : ∀ others configuration, Regrouped (cut arguments) (cut others) →
    ofArguments terminal arguments = .ok (.run configuration) →
    ofArguments terminal others = .ok (.run configuration)
  swapped : ∀ before first second after configuration,
    IsWhole before → IsWhole first → IsWhole second →
    (∀ group ∈ cut first, ∀ other ∈ cut second, group.concern? ≠ other.concern?) →
    arguments = before ++ (first ++ (second ++ after)) →
    ofArguments terminal arguments = .ok (.run configuration) →
    ofArguments terminal (before ++ (second ++ (first ++ after))) = .ok (.run configuration)
  /-- A fault is the one of the leftmost group that decides the answer.  Only if there is no
  such group, a grammar may be missing. -/
  failed : ∀ error, ofArguments terminal arguments = .error error ↔
    (∃ before group after, cut arguments = before ++ group :: after ∧ Undecided before ∧
      Decides before group (.error error)) ∨
    Undecided (cut arguments) ∧ (cut arguments).filterMap positional? = [] ∧
      error = .missingGrammar

/-- No chunk of zero elements is asked for. -/
theorem chunk_ofGroups {groups : List ArgumentGroup} (undecided : Undecided groups) :
    (Choices.ofGroups terminal groups).chunk ≠ some 0 := by
  intro zero
  rcases Option.bind_eq_some_iff.mp zero with ⟨value, last, isZero⟩
  rcases List.mem_filterMap.mp (List.mem_of_getLast? last) with ⟨group, member, told⟩
  have alone := ((undecided_iff groups).mp undecided).1 group member
  cases group with
  | given setting other =>
      rw [value?, Option.ite_none_right_eq_some] at told
      rcases told with ⟨rfl, same⟩
      cases same
      exact alone _ (.empty isZero)
  | _ => cases told

theorem ofArguments_of_regrouped {others : List String} {configuration : Configuration}
    (regrouped : Regrouped (cut arguments) (cut others))
    (answered : ofArguments terminal arguments = .ok (.run configuration)) :
    ofArguments terminal others = .ok (.run configuration) := by
  rw [ofArguments_eq_run_iff] at answered ⊢
  rw [regrouped.undecided_iff, regrouped.positionals_eq, regrouped.ofGroups_eq]
  exact answered

/-- The reading depends on the groups only. -/
theorem ofArguments_congr (terminal : Bool) {others : List String}
    (same : cut arguments = cut others) :
    ofArguments terminal arguments = ofArguments terminal others := by
  rw [ofArguments_eq, ofArguments_eq, same]

theorem readsInOrder (terminal : Bool) (arguments : List String) :
    ReadsInOrder terminal arguments where
  inlined := by
    intro before setting value after whole same
    apply ofArguments_congr
    have complete (other : Setting) :
        ofArgument (setting.name ++ "=" ++ value) ≠ .dangling other := by
      rw [ofArgument_inlined]
      exact nofun
    rw [same, cut_append whole, cut_append whole, cut_of_dangling (ofArgument_name setting),
      cut_of_complete complete, ofArgument_inlined]
  abbreviated := by
    intro before value after whole same
    apply ofArguments_congr
    have long : ofArgument "--generations" = .dangling .generations := ofArgument_name .generations
    rw [same, cut_append whole, cut_append whole, cut_of_dangling ofArgument_short,
      cut_of_dangling long]
  given := by
    intro configuration answered
    rcases ofArguments_eq_run_iff.mp answered with ⟨-, single, preferences⟩
    rw [preferences]
    exact ⟨single, rfl, rfl, rfl, rfl, rfl⟩
  chunked := by
    intro configuration answered
    rcases ofArguments_eq_run_iff.mp answered with ⟨undecided, -, preferences⟩
    rw [preferences]
    exact chunk_ofGroups undecided
  reordered := by
    intro others configuration regrouped answered
    exact ofArguments_of_regrouped regrouped answered
  swapped := by
    intro before first second after configuration whole wholeFirst wholeSecond apart same answered
    apply ofArguments_of_regrouped _ answered
    rw [same, cut_append whole, cut_append whole, cut_append wholeFirst, cut_append wholeSecond,
      cut_append wholeSecond, cut_append wholeFirst]
    exact regrouped_swap _ _ apart
  failed error := ofArguments_eq_error_iff

/-- What an option takes for its value may look like another option. -/
example : ofArguments false ["-n", "--seed=5", "--chunk"] =
    .error (.invalidNumber .generations "--seed=5") := rfl

end Request
end LSystem
