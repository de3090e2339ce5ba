import LSystem.Proofs.Dump.Typesetting

namespace LSystem

/-!
# The layout of dumps

A dump is written by a loop that keeps a few counts.  What it writes for a step of the walk
can be told from the steps before it, though, without any counts but the depth.  Main
statement: as long as lines are not wrapped, a dump is made up of one entry for each step,
and if branches are not indented either, the dump of a forest without bracket modules is
made up of the dumps of its elements.
-/

variable {V : Type}

@[simp]
theorem Symbol.opening_ne_closing : Symbol.opening ≠ .closing := by decide

@[simp]
theorem Symbol.closing_ne_opening : Symbol.closing ≠ .opening := opening_ne_closing.symm

namespace Dump

/-! ## Depths -/

/-- How deep inside branches a walk has got.  This is counted as the walk goes on: a closing
bracket takes it outwards by one level, but never further out than the forest, and what has
been cut off there is not made up for later. -/
def depthAfter (walk : List (Visit V)) : Nat :=
  walk.foldl
    (fun depth visit =>
      if visit.symbol = .opening then depth + 1
      else if visit.symbol = .closing then depth - 1
      else depth)
    0

@[simp]
theorem depthAfter_concat (walk : List (Visit V)) (visit : Visit V) :
    depthAfter (walk ++ [visit]) =
      if visit.symbol = .opening then depthAfter walk + 1
      else if visit.symbol = .closing then depthAfter walk - 1
      else depthAfter walk := List.foldl_append

/-- The number of opening brackets on a walk minus that of closing ones. -/
def balance (walk : List (Visit V)) : Int :=
  (walk.countP (·.symbol = .opening) : Int) - walk.countP (·.symbol = .closing)

@[simp]
theorem balance_append (first second : List (Visit V)) :
    balance (first ++ second) = balance first + balance second := by
  rw [balance, balance, balance, List.countP_append, List.countP_append]
  omega

theorem balance_singleton (visit : Visit V) :
    balance [visit] =
      if visit.symbol = .opening then 1 else if visit.symbol = .closing then -1 else 0 := by
  by_cases opening : visit.symbol = .opening
  · simp [balance, opening]
  · by_cases closing : visit.symbol = .closing
    · simp [balance, closing]
    · simp [balance, opening, closing]

/-- A step changes the depth by its own balance, but never below nothing. -/
theorem depthAfter_concat_eq_max (walk : List (Visit V)) (visit : Visit V) :
    (depthAfter (walk ++ [visit]) : Int) = max 0 (depthAfter walk + balance [visit]) := by
  rw [depthAfter_concat, balance_singleton]
  split_ifs <;> omega

/-- Whether a walk closes no branch before opening it. -/
def Nested (walk : List (Visit V)) : Prop := ∀ steps, 0 ≤ balance (walk.take steps)

theorem Nested.take {walk : List (Visit V)} (nested : Nested walk) (count : Nat) :
    Nested (walk.take count) := by
  intro steps
  rw [List.take_take]
  exact nested (min steps count)

/-- Along such a walk the depth is the balance. -/
theorem Nested.depthAfter_eq {walk : List (Visit V)} (nested : Nested walk) :
    (depthAfter walk : Int) = balance walk := by
  induction walk using List.reverseRecOn with
  | nil => rfl
  | append_singleton walk visit inductionHypothesis =>
      have earlier := nested.take walk.length
      rw [List.take_left] at earlier
      have whole := nested (walk ++ [visit]).length
      rw [List.take_length] at whole
      -- The balance of the whole walk is not negative, so nothing has been cut off.
      rw [depthAfter_concat_eq_max, inductionHypothesis earlier, ← balance_append]
      exact Int.max_eq_right whole

/-! ## Entries -/

/-- The symbol of the last step of a walk. -/
def latest (walk : List (Visit V)) : Option Symbol := walk.getLast?.map Visit.symbol

@[simp]
theorem latest_concat (walk : List (Visit V)) (visit : Visit V) :
    latest (walk ++ [visit]) = some visit.symbol := by
  simp [latest]

/-- Whether the next step is neither the first one nor the first one in its branch. -/
def continues (walk : List (Visit V)) : Bool :=
  latest walk ≠ none ∧ latest walk ≠ some .opening

@[simp]
theorem continues_concat (walk : List (Visit V)) (visit : Visit V) :
    continues (walk ++ [visit]) = (visit.symbol ≠ .opening : Bool) := by
  simp [continues]

/-- A separator stands between two steps, unless a bracket does in its place. -/
def separation (style : DumpStyle) (before : List (Visit V)) (visit : Visit V) : String :=
  if continues before ∧ visit.symbol ≠ .closing then style.separator else ""

theorem separation_of_unclosed {style : DumpStyle} {visit : Visit V}
    (unclosed : visit.symbol ≠ .closing) (before : List (Visit V)) :
    separation style before visit = if continues before then style.separator else "" := by
  simp only [separation, unclosed, ne_eq, not_false_eq_true, and_true]

/-- With a unit of indentation there is a line break in front of each branch, and one
behind. -/
def lineBreaks (style : DumpStyle) (before : List (Visit V)) (visit : Visit V) : String :=
  match unit? style with
  | none => ""
  | some unit =>
      let line := "\n" ++ margin unit (depthAfter (before ++ [visit]))
      (if visit.symbol = .opening then line else "") ++
        if latest before = some .closing then line else ""

/-- What is written for a step. -/
def entry (style : DumpStyle) (write : V → String) (before : List (Visit V)) (visit : Visit V) :
    String :=
  separation style before visit ++ lineBreaks style before visit ++ word write visit

/-- What is written for the rest of a walk, step by step. -/
def entries (style : DumpStyle) (write : V → String) (before : List (Visit V)) :
    List (Visit V) → List String
  | [] => []
  | visit :: rest => entry style write before visit :: entries style write (before ++ [visit]) rest

attribute [simp] entries

@[simp]
theorem entries_append (style : DumpStyle) (write : V → String)
    (before first second : List (Visit V)) :
    entries style write before (first ++ second) =
      entries style write before first ++ entries style write (before ++ first) second := by
  induction first generalizing before with
  | nil => simp
  | cons visit rest inductionHypothesis => simp [inductionHypothesis]

/-! ## One step -/

/-- What a dump in progress knows about the walk it has taken. -/
structure Stands (style : DumpStyle) (walk : List (Visit V)) (dump : Dump) : Prop where
  column : 0 < dump.column ↔ continues walk = true
  closed : dump.closed = ((unit? style).isSome && latest walk = some .closing)
  depth : (unit? style).isSome = true → dump.depth = depthAfter walk

theorem stands_blank (style : DumpStyle) : Stands (V := V) style [] blank where
  column := ⟨fun positive => absurd positive (Nat.lt_irrefl 0), nofun⟩
  closed := (Bool.and_false _).symm
  depth := fun _ => rfl

/-- Whether a separator is due can be told from the number of elements on the line. -/
theorem separation_of_column (style : DumpStyle) {before : List (Visit V)} {column : Nat}
    (positive : 0 < column ↔ continues before = true) (visit : Visit V) :
    separation style before visit =
      if visit.symbol = .closing then "" else if 0 < column then style.separator else "" := by
  by_cases closing : visit.symbol = .closing
  · rw [separation, if_pos closing, if_neg fun more => more.2 closing]
  · simp only [separation_of_unclosed closing, if_neg closing, positive]

theorem separate_eq (style : DumpStyle) (dump : Dump) :
    dump.separate style = dump.write (if 0 < dump.column then style.separator else "") := by
  rw [separate]
  split
  · rfl
  · rw [Dump.write, String.append_empty]

theorem resume_eq (style : DumpStyle) (dump : Dump) :
    dump.resume style =
      ⟨dump.depth, dump.column, false, dump.text ++
        if dump.closed then "\n" ++ margin ((unit? style).getD "") dump.depth else ""⟩ := by
  rcases dump with ⟨depth, column, closed, text⟩
  rw [resume]
  cases closed with
  | false => exact congrArg (Dump.mk depth column false) String.append_empty.symm
  | true => rfl

section Step

variable {style : DumpStyle} {before : List (Visit V)} {dump : Dump}
variable (write : V → String) (unwrapped : style.wrap = none) (stands : Stands style before dump)
include unwrapped stands

/-- The counts and the text after one step. -/
theorem step_eq (visit : Visit V) :
    dump.step style write visit =
      { depth :=
          if (unit? style).isNone then dump.depth
          else if visit.symbol = .opening then dump.depth + 1
          else if visit.symbol = .closing then dump.depth - 1
          else dump.depth
        column := if visit.symbol = .opening then 0 else dump.column + 1
        closed := (unit? style).isSome && visit.symbol = .closing
        text := dump.text ++ entry style write before visit } := by
  have closed := stands.closed
  have due := separation_of_column style stands.column visit
  have wrapLine (dump : Dump) : dump.wrapLine style = dump := by rw [Dump.wrapLine, unwrapped]
  rw [step, shift, entry, due, lineBreaks, depthAfter_concat]
  dsimp only
  simp only [wrapLine, separate_eq, resume_eq]
  cases indented : unit? style with
  | none =>
      rw [indented, Option.isSome_none, Bool.false_and] at closed
      by_cases closing : visit.symbol = .closing <;>
        simp [closing, closed, advance, Dump.write, indented, String.append_assoc]
  | some unit =>
      -- The line is broken in front of a branch before anything else is written, and behind
      -- one only just before the next word, so the brackets have to be told apart.
      have depth := stands.depth (Option.isSome_iff_exists.mpr ⟨unit, indented⟩)
      rw [indented, Option.isSome_some, Bool.true_and] at closed
      by_cases opening : visit.symbol = .opening
      · simp [opening, breakLine, Dump.write, advance, indented, closed, depth, margin,
          String.append_assoc]
      · by_cases closing : visit.symbol = .closing
        · simp [closing, Dump.write, advance, indented, closed, depth, String.append_assoc]
        · simp [closing, opening, Dump.write, advance, indented, closed, depth,
            String.append_assoc]

theorem stands_step (visit : Visit V) :
    Stands style (before ++ [visit]) (dump.step style write visit) := by
  rw [step_eq write unwrapped stands visit]
  constructor
  · by_cases opening : visit.symbol = .opening <;> simp [opening]
  · simp
  · intro indented
    rw [stands.depth indented, depthAfter_concat, ← Option.not_isSome, indented]
    rfl

/-- What has been written after more steps. -/
theorem text_foldl_step (walk : List (Visit V)) :
    (walk.foldl (Dump.step style write) dump).text =
      dump.text ++ String.join (entries style write before walk) := by
  induction walk generalizing before dump with
  | nil => simp
  | cons visit rest inductionHypothesis =>
      rw [List.foldl_cons, inductionHypothesis (stands_step write unwrapped stands visit),
        step_eq write unwrapped stands visit]
      simp [String.append_assoc]

end Step
end Dump

/-- Without wrapping, a dump is made up of the entries for all steps. -/
theorem Forest.dump_eq_entries {style : DumpStyle} (write : V → String)
    (unwrapped : style.wrap = none) (forest : Forest V) :
    Forest.dump style write forest =
      "[" ++ String.join (Dump.entries style write [] (Forest.visits forest)) ++ "]" := by
  rw [dump, Dump.text_foldl_step write unwrapped (Dump.stands_blank style), Dump.blank,
    String.empty_append]

/-! ## Forests without bracket modules -/

/-- Whether no module of a forest spells a bracket. -/
def Forest.Unbracketed (forest : Forest V) : Prop :=
  ∀ letter ∈ Forest.leaves forest, letter.symbol ≠ .opening ∧ letter.symbol ≠ .closing

instance (forest : Forest V) : Decidable forest.Unbracketed :=
  inferInstanceAs (Decidable (∀ letter ∈ Forest.leaves forest,
    letter.symbol ≠ .opening ∧ letter.symbol ≠ .closing))

namespace Forest.Unbracketed

variable {contents rest : Forest V}

theorem leaf {first : Module V} (unbracketed : Unbracketed (.leaf first :: rest)) :
    first.symbol ≠ .opening ∧ first.symbol ≠ .closing :=
  unbracketed first (List.mem_append_left _ (List.mem_singleton_self first))

theorem tail {first : Element V} (unbracketed : Unbracketed (first :: rest)) :
    Unbracketed rest :=
  fun letter member => unbracketed letter (List.mem_append_right _ member)

theorem inside (unbracketed : Unbracketed (.branch contents :: rest)) : Unbracketed contents :=
  fun letter member => unbracketed letter (List.mem_append_left _ member)

end Forest.Unbracketed

namespace Dump

namespace Nested

variable {first second walk : List (Visit V)}

theorem append (nested : Nested first) (further : Nested second) :
    Nested (first ++ second) := by
  intro steps
  rw [List.take_append, balance_append]
  exact Int.add_nonneg (nested steps) (further (steps - first.length))

/-- What is nested inside a branch is nested with it. -/
theorem enclosed (nested : Nested walk) : Nested (.enter :: (walk ++ [.exit])) := by
  intro steps
  cases steps with
  | zero => exact Int.le_refl 0
  | succ steps =>
      have inwards : balance [(Visit.enter : Visit V)] = 1 := rfl
      have outwards (taken : Nat) : -1 ≤ balance ([(Visit.exit : Visit V)].take taken) := by
        cases taken with
        | zero => exact (by decide : (-1 : Int) ≤ 0)
        | succ taken =>
            rw [List.take_succ_cons, List.take_nil]
            exact Int.le_refl (-1)
      have inside := nested steps
      have behind := outwards (steps - walk.length)
      rw [List.take_succ_cons, ← List.singleton_append, balance_append, inwards,
        List.take_append, balance_append]
      omega

theorem of_leaf {letter : Module V} (unopened : letter.symbol ≠ .opening)
    (unclosed : letter.symbol ≠ .closing) : Nested [.leaf letter] := by
  have even : balance [.leaf letter] = 0 := by
    rw [balance_singleton, Visit.symbol, if_neg unopened, if_neg unclosed]
  intro steps
  cases steps with
  | zero => exact Int.le_refl 0
  | succ steps =>
      rw [List.take_succ_cons, List.take_nil]
      exact Int.le_of_eq even.symm

end Nested
end Dump

theorem Forest.nested_visits {forest : Forest V} (unbracketed : forest.Unbracketed) :
    Dump.Nested (Forest.visits forest) := by
  induction forest using Forest.induction with
  | nil =>
      intro steps
      rw [visits, List.take_nil]
      exact Int.le_refl 0
  | leaf first rest inRest =>
      have here := Dump.Nested.of_leaf unbracketed.leaf.1 unbracketed.leaf.2
      exact here.append (inRest unbracketed.tail)
  | branch contents rest inContents inRest =>
      have here := (inContents unbracketed.inside).enclosed
      exact here.append (inRest unbracketed.tail)

/-! ## Structural layout -/

mutual

/-- The text of an element on one line. -/
def Element.inline (separator : String) (write : V → String) : Element V → String
  | .leaf letter => Dump.word write (.leaf letter)
  | .branch contents => "[" ++ separator.intercalate (Forest.inlines separator write contents) ++ "]"

/-- The texts of the elements of a forest on one line each. -/
def Forest.inlines (separator : String) (write : V → String) : Forest V → List String
  | [] => []
  | element :: rest => element.inline separator write :: Forest.inlines separator write rest

end

attribute [simp] Element.inline Forest.inlines

namespace Dump

/-- Joins texts, which continue other ones or not. -/
def joined (separator : String) : Bool → List String → String
  | true, texts => String.join (texts.map (separator ++ ·))
  | false, texts => separator.intercalate texts

theorem joined_cons (separator : String) (continued : Bool) (first : String) (rest : List String) :
    joined separator continued (first :: rest) =
      (if continued then separator else "") ++ first ++ joined separator true rest := by
  cases continued with
  | true =>
      rw [joined, List.map_cons, String.join_cons, if_pos rfl]
      rfl
  | false =>
      rw [if_neg Bool.false_ne_true, String.empty_append, joined, joined]
      induction rest generalizing first with
      | nil =>
          rw [String.intercalate_singleton, List.map_nil, String.join_nil, String.append_empty]
      | cons second rest inductionHypothesis =>
          rw [String.intercalate_cons_cons, inductionHypothesis, List.map_cons, String.join_cons,
            String.append_assoc, String.append_assoc]

theorem entry_of_unindented {style : DumpStyle} (unindented : unit? style = none)
    (write : V → String) (before : List (Visit V)) (visit : Visit V) :
    entry style write before visit = separation style before visit ++ word write visit := by
  rw [entry, lineBreaks, unindented, String.append_empty]

/-- Without indentation, the entries for a forest without bracket modules come to the
texts of its elements, joined by the separator. -/
theorem join_entries_visits {style : DumpStyle} (unindented : unit? style = none)
    (write : V → String) {forest : Forest V} (unbracketed : forest.Unbracketed)
    (before : List (Visit V)) :
    String.join (entries style write before (Forest.visits forest)) =
      joined style.separator (continues before) (Forest.inlines style.separator write forest) := by
  induction forest using Forest.induction generalizing before with
  | nil =>
      rw [Forest.visits, entries, Forest.inlines]
      cases continues before <;> rfl
  | leaf first rest inRest =>
      rcases unbracketed.leaf with ⟨unopened, unclosed⟩
      have further : continues (before ++ [.leaf first]) = true := by
        rw [continues_concat]
        exact decide_eq_true unopened
      have inner : (Visit.leaf first).symbol ≠ .closing := unclosed
      simp [inRest unbracketed.tail, further, entry_of_unindented unindented,
        separation_of_unclosed inner, joined_cons]
  | branch contents rest inContents inRest =>
      have outwards :
          continues (before ++ .enter :: (Forest.visits contents ++ [.exit])) = true := by
        simpa using
          continues_concat (before ++ .enter :: Forest.visits contents) .exit
      have opened : entry style write before .enter =
          (if continues before then style.separator else "") ++ "[" := by
        have unclosed : (Visit.enter : Visit V).symbol ≠ .closing := Symbol.opening_ne_closing
        rw [entry_of_unindented unindented, separation_of_unclosed unclosed]
        rfl
      have closed (walk : List (Visit V)) : entry style write walk .exit = "]" := by
        rw [entry_of_unindented unindented, separation, if_neg fun more => more.2 rfl]
        rfl
      have inwards : continues (before ++ [.enter]) = false := by
        rw [continues_concat]
        rfl
      have inside := inContents unbracketed.inside (before ++ [.enter])
      rw [inwards, joined] at inside
      simp [inside, inRest unbracketed.tail, outwards, opened, closed, joined_cons,
        String.append_assoc]

end Dump

/-- The dump of a forest is laid out.  The depth of its margin is a running count: it is cut off
at nothing each time a bracket closes, and goes on from there.  It is not the balance of all
brackets, cut off in the end: behind `]` and then `[` it is one, and their balance is nothing. -/
structure Forest.LaidOut (separator : String) (indent : Option String) (write : V → String)
    (forest : Forest V) : Prop where
  /-- Typesetting the dump cuts the margin between characters only, and finds as many
  visits as the forest has elements. -/
  typeset : typeset? ⟨separator, indent, none⟩ write forest (Forest.size forest) .start .blank =
    some (Forest.dump ⟨separator, indent, none⟩ write forest)
  /-- Each step comes with a separator, line breaks and its word, as far as these are due. -/
  entries : Forest.dump ⟨separator, indent, none⟩ write forest =
    "[" ++ String.join
      (Dump.entries ⟨separator, indent, none⟩ write [] (Forest.visits forest)) ++ "]"
  /-- The depth that a margin shows goes on from the one before: a bracket changes it by one,
  except that one that closes leaves a depth of nothing as it is. -/
  depth : ∀ (before : List (Visit V)) (visit : Visit V),
    (Dump.depthAfter (before ++ [visit]) : Int) =
      max 0 (Dump.depthAfter before + Dump.balance [visit])
  /-- It is the number of opening brackets so far minus that of closing ones, as long as
  each of these has been opened before. -/
  nested : ∀ walk : List (Visit V), Dump.Nested walk →
    (Dump.depthAfter walk : Int) = Dump.balance walk
  /-- This is the case all along a forest without bracket modules. -/
  unbracketed : forest.Unbracketed → ∀ steps,
    (Dump.depthAfter ((Forest.visits forest).take steps) : Int) =
      Dump.balance ((Forest.visits forest).take steps)
  /-- Without indentation the dump of such a forest is made up of those of its elements. -/
  inline : indent.getD "" = "" → forest.Unbracketed →
    Forest.dump ⟨separator, indent, none⟩ write forest =
      "[" ++ separator.intercalate (Forest.inlines separator write forest) ++ "]"

theorem Dump.unit?_eq_none_iff {style : DumpStyle} :
    unit? style = none ↔ style.indent.getD "" = "" := by
  rw [unit?]
  cases style.indent with
  | none => exact ⟨fun _ => rfl, fun _ => rfl⟩
  | some unit => simp [Option.filter]

/-- Every dump without wrapping is laid out. -/
theorem Forest.laidOut (separator : String) (indent : Option String) (write : V → String)
    (forest : Forest V) : forest.LaidOut separator indent write where
  typeset := typeset?_start ⟨separator, indent, none⟩ write forest
  entries := dump_eq_entries write rfl forest
  depth := Dump.depthAfter_concat_eq_max
  nested := fun _ nested => nested.depthAfter_eq
  unbracketed := by
    intro unbracketed steps
    exact ((nested_visits unbracketed).take steps).depthAfter_eq
  inline := by
    intro unindented unbracketed
    have plain : Dump.unit? ⟨separator, indent, none⟩ = none :=
      Dump.unit?_eq_none_iff.mpr unindented
    rw [dump_eq_entries write rfl, Dump.join_entries_visits plain write unbracketed]
    rfl

/-- A closing bracket without a partner leaves the margin alone, so the branch behind it is
indented. -/
example : Forest.dump ⟨", ", some "é", none⟩ (fun number : Nat => number.repr)
    [.leaf (.plain .closing), .branch [.leaf ⟨⟨"F"⟩, [1, 2]⟩], .leaf ⟨⟨"G"⟩, []⟩] =
      "[], \né\né[F(1, 2)], \nG]" := by decide

end LSystem
