import LSystem.Proofs.Demo.Arguments

namespace LSystem

/-!
# Values behind equals signs

An argument is taken apart at its equals sign before anybody knows which option it names, and
whoever reads the option decides for itself whether to look at the value.  An option that takes
a value does.  A switch does not, and it does not complain either.  Main statement: of the
arguments that are read as options, those with a value behind an equals sign either name an
option that takes this value, or a switch that is answered as if the value were not there, or
they are the fault that is reported.
-/

/-- A name that a value can stand behind. -/
def IsLongName (name : String) : Prop :=
  ∃ letters, name.toList = '-' :: '-' :: letters ∧ '=' ∉ letters

/-- The long names of the options that take no value. -/
def longSwitches : List String := ["--help", "--version", "--color", "--no-color"]

/-! ## Names -/

theorem splitInline_of_isLongName {name : String} (long : IsLongName name) (value : String) :
    splitInline (name ++ "=" ++ value) = (name, some value) := by
  rcases long with ⟨letters, dashes, plain⟩
  exact splitInline_append letters dashes plain value

theorem isLongName_of_mem_longSwitches {name : String} (member : name ∈ longSwitches) :
    IsLongName name := by
  simp only [longSwitches, List.mem_cons, List.not_mem_nil, or_false] at member
  rcases member with rfl | rfl | rfl | rfl
  · exact ⟨"help".toList, rfl, by decide⟩
  · exact ⟨"version".toList, rfl, by decide⟩
  · exact ⟨"color".toList, rfl, by decide⟩
  · exact ⟨"no-color".toList, rfl, by decide⟩

/-- No option takes a value at one time and none at another. -/
theorem Setting.name_not_mem_longSwitches (setting : Setting) :
    setting.name ∉ longSwitches := by
  cases setting <;> decide

/-- Every other long name is unknown. -/
theorem Flag.ofName?_of_isLongName {name : String} (long : IsLongName name)
    (noSwitch : name ∉ longSwitches) (noSetting : ∀ setting : Setting, name ≠ setting.name) :
    Flag.ofName? name = none := by
  rcases long with ⟨letters, dashes, -⟩
  unfold Flag.ofName?
  split
  · cases dashes
  · exact absurd (by decide) noSwitch
  · cases dashes
  · exact absurd (by decide) noSwitch
  · exact absurd (by decide) noSwitch
  · exact absurd (by decide) noSwitch
  · cases dashes
  · exact absurd rfl (noSetting .generations)
  · exact absurd rfl (noSetting .seed)
  · exact absurd rfl (noSetting .indent)
  · exact absurd rfl (noSetting .chunk)
  · rfl

/-! ## Groups -/

namespace ArgumentGroup

/-- As long as nothing is decided, an option may stand next. -/
theorem Undecided.isWhole {before : List String} (undecided : Undecided (cut before)) :
    IsWhole before := by
  intro setting member
  exact ((undecided_iff _).mp undecided).1 _ member _ (.dangling setting)

/-- A switch is the same one with a value behind it. -/
theorem ofArgument_longSwitch {name : String} (member : name ∈ longSwitches) (value : String) :
    ofArgument (name ++ "=" ++ value) = ofArgument name := by
  have split := splitInline_of_isLongName (isLongName_of_mem_longSwitches member) value
  rw [ofArgument, split]
  simp only [longSwitches, List.mem_cons, List.not_mem_nil, or_false] at member
  rcases member with rfl | rfl | rfl | rfl <;> rfl

theorem ofArgument_longSwitch_ne_dangling {name : String} (member : name ∈ longSwitches)
    (setting : Setting) : ofArgument name ≠ .dangling setting := by
  simp only [longSwitches, List.mem_cons, List.not_mem_nil, or_false] at member
  rcases member with rfl | rfl | rfl | rfl <;> exact nofun

/-- An unknown name is a fault with whatever stands behind it. -/
theorem ofArgument_unknown {name : String} (long : IsLongName name)
    (unknown : Flag.ofName? name = none) (value : String) :
    ofArgument (name ++ "=" ++ value) = .unknown (name ++ "=" ++ value) := by
  have dash : (name ++ "=" ++ value).startsWith "-" = true := by
    rcases long with ⟨letters, dashes, -⟩
    rw [String.startsWith_string_iff, String.toList_append, String.toList_append, dashes]
    exact ⟨_, rfl⟩
  rw [ofArgument, splitInline_of_isLongName long]
  dsimp only
  rw [unknown, if_pos dash]

end ArgumentGroup

/-! ## Answers -/

namespace Request

open ArgumentGroup

variable {terminal : Bool} {before after : List String} {name value : String}

/-- Arguments that decide nothing are left behind.  What comes next is read as an option. -/
theorem ofArguments_append (terminal : Bool) (undecided : Undecided (cut before))
    (rest : List String) :
    ofArguments terminal (before ++ rest) =
      (Choices.ofGroups terminal (cut before)).read rest := by
  rw [ofArguments_eq, cut_append undecided.isWhole, readGroups_append terminal undecided,
    Choices.read_eq]

/-- An option of its own that stands next is cut off as one more group. -/
theorem cut_next (undecided : Undecided (cut before)) {argument : String}
    (complete : ∀ setting, ofArgument argument ≠ .dangling setting) (after : List String) :
    cut (before ++ argument :: after) = cut before ++ ofArgument argument :: cut after := by
  rw [cut_append undecided.isWhole, cut_of_complete complete]

/-- A value is taken over by the option in front of its equals sign. -/
theorem cut_inlined (undecided : Undecided (cut before)) (setting : Setting) (value : String)
    (after : List String) :
    cut (before ++ (setting.name ++ "=" ++ value) :: after) =
      cut before ++ .given setting value :: cut after := by
  have complete (other : Setting) :
      ofArgument (setting.name ++ "=" ++ value) ≠ .dangling other := by
    rw [ofArgument_inlined]
    exact nofun
  rw [cut_next undecided complete, ofArgument_inlined]

/-- A value behind a switch does not show in the groups. -/
theorem cut_longSwitch (undecided : Undecided (cut before)) (member : name ∈ longSwitches)
    (value : String) (after : List String) :
    cut (before ++ (name ++ "=" ++ value) :: after) = cut (before ++ name :: after) := by
  have bare := ofArgument_longSwitch_ne_dangling member
  have valued (setting : Setting) : ofArgument (name ++ "=" ++ value) ≠ .dangling setting := by
    rw [ofArgument_longSwitch member]
    exact bare setting
  rw [cut_next undecided valued, cut_next undecided bare, ofArgument_longSwitch member]

theorem ofArguments_unknown (terminal : Bool) (undecided : Undecided (cut before))
    (long : IsLongName name) (noSwitch : name ∉ longSwitches)
    (noSetting : ∀ setting : Setting, name ≠ setting.name) (value : String)
    (after : List String) :
    ofArguments terminal (before ++ (name ++ "=" ++ value) :: after) =
      .error (.unknownOption (name ++ "=" ++ value)) := by
  have fault := ofArgument_unknown long (Flag.ofName?_of_isLongName long noSwitch noSetting) value
  have complete (setting : Setting) :
      ofArgument (name ++ "=" ++ value) ≠ .dangling setting := by
    rw [fault]
    exact nofun
  have groups := cut_next undecided complete after
  rw [fault] at groups
  exact ofArguments_of_decided groups undecided (.alone (.unknown _))

/-- No value behind an equals sign gets lost: in arguments that are answered, each one that is
read as an option and has such a value names an option that takes it. -/
def KeepsInlined (terminal : Bool) (arguments : List String) : Prop :=
  ∀ request, ofArguments terminal arguments = .ok request →
    ∀ before name value after, Undecided (cut before) → IsLongName name →
      arguments = before ++ (name ++ "=" ++ value) :: after →
      ∃ setting : Setting, name = setting.name

/-- What becomes of the values behind equals signs.  An argument is read as an option if those
before it decide nothing. -/
structure SpendsInlined (terminal : Bool) (arguments : List String) : Prop where
  reached : ∀ before rest, Undecided (cut before) → arguments = before ++ rest →
    ofArguments terminal arguments = (Choices.ofGroups terminal (cut before)).read rest
  /-- An option that takes a value takes this one, as if it were the next argument. -/
  taken : ∀ before (setting : Setting) value after, Undecided (cut before) →
    arguments = before ++ (setting.name ++ "=" ++ value) :: after →
    .given setting value ∈ cut arguments ∧
      ofArguments terminal arguments =
        ofArguments terminal (before ++ setting.name :: value :: after)
  /-- A switch is answered as if the value were not there, and never refused because of it. -/
  dropped : ∀ before name value after, Undecided (cut before) → name ∈ longSwitches →
    arguments = before ++ (name ++ "=" ++ value) :: after →
    ofArguments terminal arguments = ofArguments terminal (before ++ name :: after)
  /-- With any other name the argument is the fault that is reported. -/
  refused : ∀ before name value after, Undecided (cut before) → IsLongName name →
    name ∉ longSwitches → (∀ setting : Setting, name ≠ setting.name) →
    arguments = before ++ (name ++ "=" ++ value) :: after →
    ofArguments terminal arguments = .error (.unknownOption (name ++ "=" ++ value))
  /-- Arguments that are answered have values behind names of these two kinds only. -/
  known : ∀ request, ofArguments terminal arguments = .ok request →
    ∀ before name value after, Undecided (cut before) → IsLongName name →
      arguments = before ++ (name ++ "=" ++ value) :: after →
      (∃ setting : Setting, name = setting.name) ∨ name ∈ longSwitches
  /-- So a value gets lost exactly where a switch is given one and there is an answer. -/
  keepsInlined_iff : KeepsInlined terminal arguments ↔
    ∀ request, ofArguments terminal arguments = .ok request →
      ∀ before name value after, Undecided (cut before) → name ∈ longSwitches →
        arguments ≠ before ++ (name ++ "=" ++ value) :: after

/-- Whatever the arguments are, an answer is given only if every value stands behind a name
that is known. -/
theorem known_of_answered {arguments : List String} {request : Request}
    (answered : ofArguments terminal arguments = .ok request)
    (undecided : Undecided (cut before)) (long : IsLongName name)
    (same : arguments = before ++ (name ++ "=" ++ value) :: after) :
    (∃ setting : Setting, name = setting.name) ∨ name ∈ longSwitches := by
  by_contra unknown
  rw [not_or, not_exists] at unknown
  have refused := ofArguments_unknown terminal undecided long unknown.2 unknown.1 value after
  rw [← same, answered] at refused
  cases refused

theorem spendsInlined (terminal : Bool) (arguments : List String) :
    SpendsInlined terminal arguments where
  reached := by
    rintro before rest undecided rfl
    exact ofArguments_append terminal undecided rest
  taken := by
    rintro before setting value after undecided rfl
    have inlined := cut_inlined undecided setting value after
    constructor
    · rw [inlined]
      exact List.mem_append_right _ List.mem_cons_self
    · apply ofArguments_congr
      rw [inlined, cut_append undecided.isWhole, cut_of_dangling (ofArgument_name setting)]
  dropped := by
    rintro before name value after undecided member rfl
    exact ofArguments_congr terminal (cut_longSwitch undecided member value after)
  refused := by
    rintro before name value after undecided long noSwitch noSetting rfl
    exact ofArguments_unknown terminal undecided long noSwitch noSetting value after
  known := by
    intro request answered before name value after undecided long same
    exact known_of_answered answered undecided long same
  keepsInlined_iff := by
    constructor
    · intro keeps request answered before name value after undecided member same
      have long := isLongName_of_mem_longSwitches member
      rcases keeps request answered before name value after undecided long same with
        ⟨setting, rfl⟩
      exact setting.name_not_mem_longSwitches member
    · intro apart request answered before name value after undecided long same
      rcases known_of_answered answered undecided long same with setting | member
      · exact setting
      · exact absurd same (apart request answered before name value after undecided member)

/-- Whoever does not want colours gets them. -/
theorem wantsColor_of_never :
    ofArguments false ["--color=never", "-n", "0", "koch"] =
        .ok (.run ⟨⟨some 0, none, none, none, true⟩, "koch"⟩) ∧
      ¬ KeepsInlined false ["--color=never", "-n", "0", "koch"] := by
  have answered : ofArguments false ["--color=never", "-n", "0", "koch"] =
      .ok (.run ⟨⟨some 0, none, none, none, true⟩, "koch"⟩) := by decide +kernel
  have switch : "--color" ∈ longSwitches := by decide
  refine ⟨answered, ?_⟩
  intro keeps
  rcases keeps _ answered [] "--color" "never" _ undecided_nil
    (isLongName_of_mem_longSwitches switch) rfl with ⟨setting, same⟩
  rw [same] at switch
  exact setting.name_not_mem_longSwitches switch

/-- Behind the short name of a switch nothing may stand. -/
example : ofArguments false ["-h=never"] = .error (.unknownOption "-h=never") := by
  decide +kernel

end Request
end LSystem
