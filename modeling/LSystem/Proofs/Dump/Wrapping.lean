import LSystem.Proofs.Dump.Layout

namespace LSystem

/-!
# Wrapped dumps

A line that has become too long is broken in front of the next step, and the separator
stands before the break.  That is so in front of the end of a branch as well, where there is
no separator on an unbroken line.  Main statement: without its line breaks a wrapped dump is
the dump that is not wrapped, with one separator too many at the end of each branch that
begins a new line.
-/

variable {V : Type}

/-! ## Texts without line breaks -/

/-- A text without its line breaks. -/
def unbroken (text : String) : String := String.ofList (text.toList.filter (· ≠ '\n'))

/-- Whether a text is on one line. -/
def IsLine (text : String) : Prop := '\n' ∉ text.toList

instance (text : String) : Decidable (IsLine text) :=
  inferInstanceAs (Decidable ('\n' ∉ text.toList))

@[simp]
theorem isLine_empty : IsLine "" := List.not_mem_nil

@[simp]
theorem isLine_append_iff {first second : String} :
    IsLine (first ++ second) ↔ IsLine first ∧ IsLine second := by
  rw [IsLine, String.toList_append, List.mem_append, not_or]
  rfl

@[simp]
theorem unbroken_append (first second : String) :
    unbroken (first ++ second) = unbroken first ++ unbroken second := by
  rw [unbroken, String.toList_append, List.filter_append, String.ofList_append]
  rfl

theorem unbroken_of_isLine {text : String} (line : IsLine text) : unbroken text = text := by
  have kept : text.toList.filter (· ≠ '\n') = text.toList := by
    apply List.filter_eq_self.mpr
    intro character member
    apply decide_eq_true
    rintro rfl
    exact line member
  rw [unbroken, kept, String.ofList_toList]

theorem isLine_intercalate {separator : String} (line : IsLine separator) {texts : List String}
    (lines : ∀ text ∈ texts, IsLine text) : IsLine (separator.intercalate texts) := by
  induction texts with
  | nil => simp
  | cons first rest inductionHypothesis =>
      rw [List.forall_mem_cons] at lines
      cases rest with
      | nil => simp [lines.1]
      | cons second rest => simp [lines.1, line, inductionHypothesis lines.2]

/-- Whether the symbols of a forest and the texts of its arguments are on one line each. -/
def Forest.IsWrittenInLines (write : V → String) (forest : Forest V) : Prop :=
  ∀ letter ∈ Forest.leaves forest,
    IsLine letter.symbol.text ∧ ∀ argument ∈ letter.arguments, IsLine (write argument)

instance (write : V → String) (forest : Forest V) : Decidable (forest.IsWrittenInLines write) :=
  inferInstanceAs (Decidable (∀ letter ∈ Forest.leaves forest,
    IsLine letter.symbol.text ∧ ∀ argument ∈ letter.arguments, IsLine (write argument)))

namespace Dump

theorem isLine_word {write : V → String} {visit : Visit V} (symbol : IsLine visit.symbol.text)
    (arguments : ∀ argument ∈ visit.arguments, IsLine (write argument)) :
    IsLine (word write visit) := by
  rw [word]
  split
  · exact symbol
  · have texts : IsLine (", ".intercalate (visit.arguments.map write)) :=
      isLine_intercalate (by decide) (List.forall_mem_map.mpr arguments)
    have opened : IsLine "(" := by decide
    have closed : IsLine ")" := by decide
    simp [symbol, opened, texts, closed]

/-! ## Lines -/

/-- How many elements the line holds after a walk. -/
def columnAfter (limit : Nat) (walk : List (Visit V)) : Nat :=
  walk.foldl
    (fun column visit =>
      if visit.symbol = .opening then 0 else (if limit < column then 0 else column) + 1)
    0

@[simp]
theorem columnAfter_concat (limit : Nat) (walk : List (Visit V)) (visit : Visit V) :
    columnAfter limit (walk ++ [visit]) =
      if visit.symbol = .opening then 0
      else (if limit < columnAfter limit walk then 0 else columnAfter limit walk) + 1 :=
  List.foldl_append

theorem columnAfter_pos_iff (limit : Nat) (walk : List (Visit V)) :
    0 < columnAfter limit walk ↔ continues walk = true := by
  induction walk using List.reverseRecOn with
  | nil => exact ⟨fun positive => absurd positive (Nat.lt_irrefl 0), nofun⟩
  | append_singleton walk visit _ =>
      by_cases opening : visit.symbol = .opening <;> simp [opening]

/-! ## Entries of a wrapped dump -/

/-- Whether a step is the end of a branch and begins a new line. -/
def endsLate (limit : Nat) (before : List (Visit V)) (visit : Visit V) : Bool :=
  limit < columnAfter limit before && visit.symbol = .closing

/-- How many steps of the rest of a walk are so. -/
def lateEnds (limit : Nat) (before : List (Visit V)) : List (Visit V) → Nat
  | [] => 0
  | visit :: rest =>
      (if endsLate limit before visit then 1 else 0) + lateEnds limit (before ++ [visit]) rest

/-- What is written for the rest of a walk if there is a separator in front of each of
these steps besides. -/
def looseEntries (separator : String) (limit : Nat) (write : V → String)
    (before : List (Visit V)) : List (Visit V) → List String
  | [] => []
  | visit :: rest =>
      ((if endsLate limit before visit then separator else "") ++
          entry ⟨separator, none, none⟩ write before visit) ::
        looseEntries separator limit write (before ++ [visit]) rest

attribute [simp] lateEnds looseEntries

/-- What is written for a step where long lines are broken. -/
def wrappedEntry (separator : String) (limit : Nat) (write : V → String)
    (before : List (Visit V)) (visit : Visit V) : String :=
  (if limit < columnAfter limit before then separator ++ "\n"
    else separation ⟨separator, none, none⟩ before visit) ++ word write visit

section Step

variable (separator : String) (limit : Nat) (write : V → String)
variable {before : List (Visit V)} {dump : Dump}

theorem step_wrapped (column : dump.column = columnAfter limit before)
    (unclosed : dump.closed = false) (visit : Visit V) :
    dump.step ⟨separator, none, some limit⟩ write visit =
      ⟨dump.depth, columnAfter limit (before ++ [visit]), false,
        dump.text ++ wrappedEntry separator limit write before visit⟩ := by
  have unindented : unit? ⟨separator, none, some limit⟩ = none := rfl
  have due := separation_of_column ⟨separator, none, none⟩ (columnAfter_pos_iff limit before) visit
  have line : String.join (List.replicate dump.depth "") = "" := margin_empty dump.depth
  rw [step, shift, wrapLine, columnAfter_concat, wrappedEntry, due]
  dsimp only
  simp only [unindented, Option.isNone_none, if_true, column, separate_eq, resume_eq]
  by_cases full : limit < columnAfter limit before
  · by_cases closing : visit.symbol = .closing <;>
      simp [full, closing, unclosed, unindented, line, advance, breakLine, Dump.write,
        String.append_assoc]
  · by_cases closing : visit.symbol = .closing <;>
      simp [full, closing, unclosed, unindented, column, advance, Dump.write, String.append_assoc]

/-- Without line breaks, a wrapped entry is the entry on an unbroken line, unless it is the
end of a branch. -/
theorem unbroken_wrappedEntry {visit : Visit V} (separated : IsLine separator)
    (line : IsLine (word write visit)) (before : List (Visit V)) :
    unbroken (wrappedEntry separator limit write before visit) =
      (if endsLate limit before visit then separator else "") ++
        entry ⟨separator, none, none⟩ write before visit := by
  have due := separation_of_column ⟨separator, none, none⟩ (columnAfter_pos_iff limit before) visit
  have broken : unbroken "\n" = "" := by decide
  rw [wrappedEntry, unbroken_append, unbroken_of_isLine line, entry_of_unindented rfl,
    ← String.append_assoc, due, endsLate]
  congr 1
  by_cases full : limit < columnAfter limit before
  · -- A line that is too long holds something, so a separator is due except before an end.
    have positive : 0 < columnAfter limit before := by omega
    rw [if_pos full, unbroken_append, unbroken_of_isLine separated, broken]
    by_cases closing : visit.symbol = .closing <;> simp [full, closing, positive]
  · have text : IsLine (if visit.symbol = .closing then ""
        else if 0 < columnAfter limit before then separator else "") := by
      split_ifs
      · exact isLine_empty
      · exact separated
      · exact isLine_empty
    rw [if_neg full, unbroken_of_isLine text]
    simp [full]

/-- What has been written after more steps, line breaks apart. -/
theorem unbroken_text_foldl_step (separated : IsLine separator) {walk : List (Visit V)}
    (lines : ∀ visit ∈ walk, IsLine (word write visit))
    (column : dump.column = columnAfter limit before) (unclosed : dump.closed = false) :
    unbroken (walk.foldl (Dump.step ⟨separator, none, some limit⟩ write) dump).text =
      unbroken dump.text ++ String.join (looseEntries separator limit write before walk) := by
  induction walk generalizing before dump with
  | nil => simp
  | cons visit rest inductionHypothesis =>
      rw [List.forall_mem_cons] at lines
      rw [List.foldl_cons, step_wrapped separator limit write column unclosed,
        @inductionHypothesis (before ++ [visit]) _ lines.2 rfl rfl]
      simp [unbroken_wrappedEntry separator limit write separated lines.1, String.append_assoc]

theorem length_join_looseEntries (before walk : List (Visit V)) :
    (String.join (looseEntries separator limit write before walk)).length =
      (String.join (entries ⟨separator, none, none⟩ write before walk)).length +
        lateEnds limit before walk * separator.length := by
  induction walk generalizing before with
  | nil => simp
  | cons visit rest inductionHypothesis =>
      simp only [looseEntries, entries, lateEnds, String.join_cons, String.length_append,
        inductionHypothesis, Nat.add_mul]
      split <;> simp <;> omega

theorem looseEntries_eq_entries {before walk : List (Visit V)}
    (same : separator = "" ∨ lateEnds limit before walk = 0) :
    looseEntries separator limit write before walk =
      entries ⟨separator, none, none⟩ write before walk := by
  induction walk generalizing before with
  | nil => rfl
  | cons visit rest inductionHypothesis =>
      rw [lateEnds, Nat.add_eq_zero_iff] at same
      have nothing : (if endsLate limit before visit then separator else "") = "" := by
        split
        · rename_i late
          rcases same with empty | ⟨early, -⟩
          · exact empty
          · rw [if_pos late] at early
            cases early
        · rfl
      simp [nothing, inductionHypothesis (same.imp_right And.right)]

end Step
end Dump

theorem Forest.mem_leaves_of_mem_visits {forest : Forest V} {letter : Module V}
    (member : .leaf letter ∈ Forest.visits forest) : letter ∈ Forest.leaves forest := by
  induction forest using Forest.induction with
  | nil => cases member
  | leaf first rest inRest =>
      have met : letter = first ∨ .leaf letter ∈ Forest.visits rest := by simpa using member
      simpa using met.imp_right inRest
  | branch contents rest inContents inRest =>
      have met : .leaf letter ∈ Forest.visits contents ∨ .leaf letter ∈ Forest.visits rest := by
        simpa using member
      simpa using met.imp inContents inRest

theorem Forest.IsWrittenInLines.isLine_word {write : V → String} {forest : Forest V}
    (lines : forest.IsWrittenInLines write) :
    ∀ visit ∈ Forest.visits forest, IsLine (Dump.word write visit) := by
  intro visit member
  cases visit with
  | enter => exact (by decide : IsLine "[")
  | exit => exact (by decide : IsLine "]")
  | leaf letter =>
      rcases lines letter (Forest.mem_leaves_of_mem_visits member) with ⟨symbol, arguments⟩
      exact Dump.isLine_word symbol arguments

/-- What a wrapped dump is without its line breaks. -/
structure Forest.Wraps (separator : String) (limit : Nat) (write : V → String)
    (forest : Forest V) : Prop where
  /-- The entries of the dump that is not wrapped, with a separator more at each end of a
  branch that begins a new line. -/
  loosened : unbroken (Forest.dump ⟨separator, none, some limit⟩ write forest) =
    "[" ++ String.join
      (Dump.looseEntries separator limit write [] (Forest.visits forest)) ++ "]"
  /-- It is longer than the dump that is not wrapped by as many separators. -/
  lengthened : (unbroken (Forest.dump ⟨separator, none, some limit⟩ write forest)).length =
    (Forest.dump ⟨separator, none, none⟩ write forest).length +
      Dump.lateEnds limit [] (Forest.visits forest) * separator.length
  /-- So the two are the same just if there is no such end, or nothing to separate with. -/
  same_iff : unbroken (Forest.dump ⟨separator, none, some limit⟩ write forest) =
      Forest.dump ⟨separator, none, none⟩ write forest ↔
    separator = "" ∨ Dump.lateEnds limit [] (Forest.visits forest) = 0

theorem Forest.unbroken_dump {separator : String} (separated : IsLine separator) (limit : Nat)
    {write : V → String} {forest : Forest V} (lines : forest.IsWrittenInLines write) :
    unbroken (Forest.dump ⟨separator, none, some limit⟩ write forest) =
      "[" ++ String.join
        (Dump.looseEntries separator limit write [] (Forest.visits forest)) ++ "]" := by
  have opened : unbroken "[" = "[" := by decide
  have closed : unbroken "]" = "]" := by decide
  have empty : unbroken Dump.blank.text = "" := by decide
  have started : Dump.blank.column = Dump.columnAfter limit ([] : List (Visit V)) := rfl
  rw [dump, unbroken_append, unbroken_append, opened, closed,
    Dump.unbroken_text_foldl_step separator limit write separated lines.isLine_word started rfl,
    empty, String.empty_append]

/-- Wrapping adds nothing but line breaks, and separators at the ends of branches. -/
theorem Forest.wraps_of_isLine {separator : String} (separated : IsLine separator) (limit : Nat)
    {write : V → String} {forest : Forest V} (lines : forest.IsWrittenInLines write) :
    forest.Wraps separator limit write := by
  have loosened := unbroken_dump separated limit lines
  have plain : Forest.dump ⟨separator, none, none⟩ write forest =
      "[" ++ String.join (Dump.entries ⟨separator, none, none⟩ write [] (visits forest)) ++ "]" :=
    dump_eq_entries write rfl forest
  have lengthened : (unbroken (Forest.dump ⟨separator, none, some limit⟩ write forest)).length =
      (Forest.dump ⟨separator, none, none⟩ write forest).length +
        Dump.lateEnds limit [] (Forest.visits forest) * separator.length := by
    rw [loosened, plain]
    simp only [String.length_append, Dump.length_join_looseEntries]
    omega
  refine ⟨loosened, lengthened, ?_, ?_⟩
  · intro same
    rw [same] at lengthened
    rcases Nat.mul_eq_zero.mp (Nat.left_eq_add.mp lengthened) with early | empty
    · exact .inr early
    · exact .inl (String.length_eq_zero_iff.mp empty)
  · intro same
    rw [loosened, plain, Dump.looseEntries_eq_entries separator limit write same]

/-- A branch of two modules, with a line break in front of its end. -/
def hedgerow : Forest Nat := [.branch [.leaf (.plain ⟨"A"⟩), .leaf (.plain ⟨"B"⟩)]]

theorem hedgerow_wraps :
    IsLine ", " ∧ hedgerow.IsWrittenInLines Nat.repr ∧ hedgerow.Wraps ", " 1 Nat.repr ∧
      Dump.lateEnds 1 [] (Forest.visits hedgerow) = 1 := by
  have separated : IsLine ", " := by decide
  have lines : hedgerow.IsWrittenInLines Nat.repr := by decide
  exact ⟨separated, lines, Forest.wraps_of_isLine separated 1 lines, by decide⟩

/-- Wrapping can add separators. -/
theorem hedgerow_gains_separator :
    IsLine ", " ∧ hedgerow.IsWrittenInLines Nat.repr ∧
      Forest.dump ⟨", ", none, some 1⟩ Nat.repr hedgerow = "[[A, B, \n]]" ∧
      Forest.dump ⟨", ", none, none⟩ Nat.repr hedgerow = "[[A, B]]" ∧
      unbroken (Forest.dump ⟨", ", none, some 1⟩ Nat.repr hedgerow) ≠
        Forest.dump ⟨", ", none, none⟩ Nat.repr hedgerow := by
  decide

end LSystem
