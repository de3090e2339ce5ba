import LSystem.Proofs.Dump.Wrapping

namespace LSystem

/-!
# The lines of a dump

Which line an element stands on can be told from the text: it is the number of line breaks
up to there.  A line that holds too many elements is broken, but their count begins anew with
each branch, even where a branch does not begin a new line.  Main statement: up to one
element more than the limit a line may hold in any case, and the limit once more for each
branch that begins on it, unless branches are indented.  There are lines that hold as many.
-/

variable {V : Type}

/-- The number of line breaks in a text. -/
def breaks (text : String) : Nat := text.toList.count '\n'

@[simp]
theorem breaks_append (first second : String) :
    breaks (first ++ second) = breaks first + breaks second := by
  rw [breaks, String.toList_append, List.count_append]
  rfl

theorem breaks_of_isLine {text : String} (line : IsLine text) : breaks text = 0 :=
  List.count_eq_zero.mpr line

namespace Visit

/-- Whether a step is that of a module, which may spell a bracket. -/
def isLeaf : Visit V → Bool
  | .enter => false
  | .exit => false
  | .leaf _ => true

end Visit

/-! ## What stands on a line -/

/-- The number of modules among some steps. -/
def moduleCount (line : List (Visit V)) : Nat := line.countP (·.isLeaf)

/-- The number of branches that begin with some steps, those spelled by modules included. -/
def branchStarts (line : List (Visit V)) : Nat := line.countP (·.symbol = .opening)

/-- The number of modules among some steps that spell the beginning of a branch. -/
def spelledStarts (line : List (Visit V)) : Nat :=
  line.countP fun visit => visit.isLeaf && visit.symbol = .opening

section Counts

variable {visit : Visit V} (line : List (Visit V))

theorem branchStarts_cons_of_opening (opening : visit.symbol = .opening) :
    branchStarts (visit :: line) = branchStarts line + 1 := by
  rw [branchStarts, List.countP_cons, if_pos (decide_eq_true opening), branchStarts]

theorem branchStarts_cons_of_ne (unopening : visit.symbol ≠ .opening) :
    branchStarts (visit :: line) = branchStarts line :=
  List.countP_cons_of_neg (mt of_decide_eq_true unopening)

/-- The beginning of a branch is a module just if it is spelled. -/
theorem moduleCount_cons_of_opening (opening : visit.symbol = .opening) :
    moduleCount (visit :: line) + spelledStarts line =
      moduleCount line + spelledStarts (visit :: line) := by
  simp only [moduleCount, spelledStarts, List.countP_cons, opening, decide_true, Bool.and_true]
  omega

theorem spelledStarts_cons_of_ne (unopening : visit.symbol ≠ .opening) :
    spelledStarts (visit :: line) = spelledStarts line := by
  simp only [spelledStarts, List.countP_cons, unopening, decide_false, Bool.and_false,
    Bool.false_eq_true, if_false, Nat.add_zero]

theorem moduleCount_cons_le (visit : Visit V) (line : List (Visit V)) :
    moduleCount (visit :: line) ≤ moduleCount line + 1 := by
  rw [moduleCount, List.countP_cons]
  split_ifs
  · exact Nat.le_refl _
  · exact Nat.le_succ _

end Counts

namespace Dump

/-- The steps of the rest of a walk whose words end on the line with a number. -/
def stepsOn (style : DumpStyle) (write : V → String) (number : Nat) (dump : Dump) :
    List (Visit V) → List (Visit V)
  | [] => []
  | visit :: rest =>
      let next := dump.step style write visit
      if breaks next.text = number then visit :: stepsOn style write number next rest
      else stepsOn style write number next rest

end Dump

/-- The steps that stand on a line of a dump.  Lines are numbered from zero. -/
def Forest.line (style : DumpStyle) (write : V → String) (forest : Forest V) (number : Nat) :
    List (Visit V) :=
  Dump.stepsOn style write number .blank (Forest.visits forest)

namespace Dump

/-! ## Line breaks of one step -/

section Breaks

variable (style : DumpStyle) (dump : Dump)

@[simp]
theorem breaks_write (text : String) :
    breaks (dump.write text).text = breaks dump.text + breaks text := breaks_append dump.text text

theorem breaks_lt_breakLine : breaks dump.text < breaks (dump.breakLine style).text := by
  have broken : breaks "\n" = 1 := by decide
  simp only [breakLine, breaks_write, breaks_append, broken]
  omega

theorem breaks_le_separate : breaks dump.text ≤ breaks (dump.separate style).text := by
  simp [separate_eq]

/-- With indentation a branch begins a new line. -/
theorem breaks_lt_shift_opening (indented : (unit? style).isSome = true) :
    breaks dump.text < breaks (dump.shift style .opening).text := by
  have some : ¬ (unit? style).isNone = true := by
    rw [Option.isNone_iff_eq_none, ← Option.not_isSome_iff_eq_none, not_not]
    exact indented
  have broken := breaks_lt_breakLine style
    { dump.separate style with depth := (dump.separate style).depth + 1 }
  rw [shift, if_neg some, if_pos rfl]
  exact Nat.lt_of_le_of_lt (breaks_le_separate style dump) broken

theorem breaks_le_shift (symbol : Symbol) :
    breaks dump.text ≤ breaks (dump.shift style symbol).text := by
  by_cases opens : (unit? style).isSome = true ∧ symbol = .opening
  · rcases opens with ⟨indented, rfl⟩
    exact Nat.le_of_lt (breaks_lt_shift_opening style dump indented)
  · have same : (dump.shift style symbol).text = dump.text := by
      rw [← Option.not_isNone, Bool.not_eq_true'] at opens
      rw [shift]
      split_ifs <;> simp_all
    rw [same]

theorem breaks_le_wrapLine : breaks dump.text ≤ breaks (dump.wrapLine style).text := by
  rw [wrapLine]
  split
  · exact Nat.le_refl _
  · split_ifs
    · have broken := breaks_lt_breakLine style (dump.write style.separator)
      simp only [breaks_write] at broken
      dsimp only
      omega
    · exact Nat.le_refl _

theorem breaks_le_resume : breaks dump.text ≤ breaks (dump.resume style).text := by
  simp [resume_eq]

/-- What is written after a line may have been wrapped only adds to the text. -/
theorem breaks_le_step_of_wrapLine (write : V → String) (visit : Visit V) :
    breaks ((dump.shift style visit.symbol).wrapLine style).text ≤
      breaks (dump.step style write visit).text := by
  generalize wrapped : (dump.shift style visit.symbol).wrapLine style = ready
  have written (text : String) (dump : Dump) :
      breaks dump.text ≤ breaks ((dump.resume style).write text).text := by
    rw [breaks_write]
    exact Nat.le_trans (breaks_le_resume style dump) (Nat.le_add_right _ _)
  rw [step, wrapped]
  dsimp only [advance]
  split_ifs
  · exact written _ ready
  · exact Nat.le_trans (breaks_le_separate style ready) (written _ _)

theorem breaks_le_step (write : V → String) (visit : Visit V) :
    breaks dump.text ≤ breaks (dump.step style write visit).text :=
  calc breaks dump.text
    _ ≤ breaks (dump.shift style visit.symbol).text := breaks_le_shift style dump visit.symbol
    _ ≤ breaks ((dump.shift style visit.symbol).wrapLine style).text :=
        breaks_le_wrapLine style _
    _ ≤ breaks (dump.step style write visit).text :=
        breaks_le_step_of_wrapLine style dump write visit

theorem breaks_lt_step_of_opening (indented : (unit? style).isSome = true) (write : V → String)
    {visit : Visit V} (opening : visit.symbol = .opening) :
    breaks dump.text < breaks (dump.step style write visit).text := by
  have shifted := breaks_lt_shift_opening style dump indented
  rw [← opening] at shifted
  exact Nat.lt_of_lt_of_le shifted (Nat.le_trans (breaks_le_wrapLine style _)
    (breaks_le_step_of_wrapLine style dump write visit))

end Breaks

/-! ## Room on a line -/

/-- How many elements a line can still take, as long as no branch begins on it. -/
def room (limit number : Nat) (dump : Dump) : Nat :=
  if breaks dump.text = number then limit + 1 - dump.column else limit + 1

/-- How many more it can take behind the beginning of a branch. -/
def refill (style : DumpStyle) (limit : Nat) : Nat :=
  if (unit? style).isSome then 0 else limit

theorem room_le (limit number : Nat) (dump : Dump) : room limit number dump ≤ limit + 1 := by
  rw [room]
  split_ifs
  · exact Nat.sub_le _ _
  · exact Nat.le_refl _

/-! ## Columns -/

theorem column_shift (style : DumpStyle) (symbol : Symbol) (dump : Dump) :
    (dump.shift style symbol).column =
      if (unit? style).isSome ∧ symbol = .opening then 0 else dump.column := by
  rw [shift]
  cases unit? style with
  | none => rfl
  | some unit =>
      by_cases opening : symbol = .opening
      · simp [opening]
      · by_cases closing : symbol = .closing <;> simp [opening, closing]

/-- Nothing more is put on the lines above. -/
theorem stepsOn_of_lt {style : DumpStyle} {write : V → String} {dump : Dump} {number : Nat}
    (above : number < breaks dump.text) (walk : List (Visit V)) :
    stepsOn style write number dump walk = [] := by
  induction walk generalizing dump with
  | nil => rfl
  | cons visit rest inductionHypothesis =>
      have further := Nat.lt_of_lt_of_le above (breaks_le_step style dump write visit)
      rw [stepsOn, if_neg (Nat.ne_of_gt further)]
      exact inductionHypothesis further

section Wrapped

variable {style : DumpStyle} {limit : Nat} (wrapped : style.wrap = some limit)
variable {write : V → String} {dump : Dump} {visit : Visit V} {number : Nat}

include wrapped

theorem wrapLine_of_full (full : limit < dump.column) :
    dump.wrapLine style =
      { (dump.write style.separator).breakLine style with column := 0 } := by
  rw [wrapLine, wrapped]
  exact if_pos full

theorem column_wrapLine (dump : Dump) :
    (dump.wrapLine style).column = if limit < dump.column then 0 else dump.column := by
  rw [wrapLine, wrapped]
  dsimp only
  split_ifs <;> rfl

/-- The count ends at the beginning of a branch, whether or not it begins a line. -/
theorem column_step (dump : Dump) (write : V → String) (visit : Visit V) :
    (dump.step style write visit).column =
      if visit.symbol = .opening then 0
      else (if limit < dump.column then 0 else dump.column) + 1 := by
  have separated (dump : Dump) : (dump.separate style).column = dump.column := by
    rw [separate_eq]
    rfl
  by_cases opening : visit.symbol = .opening
  · rw [if_pos opening, step]
    exact if_pos opening
  · have still := column_shift style visit.symbol dump
    rw [if_neg fun opens => opening opens.2] at still
    rw [if_neg opening, step]
    dsimp only [advance, Dump.write]
    rw [if_neg opening, resume_eq, apply_ite column, separated, ite_self,
      column_wrapLine wrapped, still]

/-- A line that holds too many elements is broken. -/
theorem breaks_lt_step_of_full (full : limit < dump.column) (write : V → String)
    (visit : Visit V) : breaks dump.text < breaks (dump.step style write visit).text := by
  by_cases opens : (unit? style).isSome ∧ visit.symbol = .opening
  · exact breaks_lt_step_of_opening style dump opens.1 write opens.2
  · have still := column_shift style visit.symbol dump
    rw [if_neg opens] at still
    rw [← still] at full
    have written := breaks_write (dump.shift style visit.symbol) style.separator
    calc breaks dump.text
      _ ≤ breaks (dump.shift style visit.symbol).text := breaks_le_shift style dump visit.symbol
      _ ≤ breaks ((dump.shift style visit.symbol).write style.separator).text := by omega
      _ < breaks ((dump.shift style visit.symbol).wrapLine style).text := by
          rw [wrapLine_of_full wrapped full]
          exact breaks_lt_breakLine style _
      _ ≤ breaks (dump.step style write visit).text :=
          breaks_le_step_of_wrapLine style dump write visit

/-- Behind the beginning of a branch there is room for a whole line, which is more than there
was by a refill at most. -/
theorem room_step_of_opening (opening : visit.symbol = .opening)
    (here : breaks (dump.step style write visit).text = number) :
    limit + 1 ≤ refill style limit + room limit number dump := by
  have unfilled (same : breaks dump.text = number) : dump.column ≤ limit := by
    by_contra full
    have broken := breaks_lt_step_of_full wrapped (Nat.not_le.mp full) write visit
    omega
  rw [refill, room]
  split_ifs with indented same same
  · have broken := breaks_lt_step_of_opening style dump indented write opening
    omega
  · omega
  · have within := unfilled same
    omega
  · omega

/-- Any other step takes the place of one element. -/
theorem room_step_lt (unopening : visit.symbol ≠ .opening)
    (here : breaks (dump.step style write visit).text = number) :
    room limit number (dump.step style write visit) < room limit number dump := by
  have column := column_step wrapped dump write visit
  rw [if_neg unopening] at column
  rw [room, room, if_pos here]
  by_cases full : limit < dump.column
  · have broken := breaks_lt_step_of_full wrapped full write visit
    have elsewhere : breaks dump.text ≠ number := by omega
    rw [if_pos full] at column
    rw [if_neg elsewhere, column]
    omega
  · rw [if_neg full] at column
    rw [column]
    split_ifs <;> omega

/-- However the walk goes on, a line takes only what there is room for, and a refill for each
branch that begins on it. -/
theorem moduleCount_stepsOn_le (write : V → String) (number : Nat) (dump : Dump)
    (walk : List (Visit V)) :
    moduleCount (stepsOn style write number dump walk) ≤
      refill style limit * branchStarts (stepsOn style write number dump walk) +
        spelledStarts (stepsOn style write number dump walk) + room limit number dump := by
  induction walk generalizing dump with
  | nil => exact Nat.zero_le _
  | cons visit rest inductionHypothesis =>
      have onward := inductionHypothesis (dump.step style write visit)
      rw [stepsOn]
      by_cases here : breaks (dump.step style write visit).text = number
      · rw [if_pos here]
        generalize stepsOn style write number (dump.step style write visit) rest = line at onward
        by_cases opening : visit.symbol = .opening
        · have whole := room_step_of_opening wrapped opening here
          have within := room_le limit number (dump.step style write visit)
          have counted := moduleCount_cons_of_opening line opening
          rw [branchStarts_cons_of_opening line opening, Nat.mul_succ]
          omega
        · have taken := room_step_lt wrapped opening here
          have counted := moduleCount_cons_le visit line
          rw [branchStarts_cons_of_ne line opening, spelledStarts_cons_of_ne line opening]
          omega
      · rw [if_neg here]
        by_cases same : breaks dump.text = number
        · have monotone := breaks_le_step style dump write visit
          rw [stepsOn_of_lt (by omega)]
          exact Nat.zero_le _
        · rw [room, if_neg here] at onward
          rw [room, if_neg same]
          exact onward

end Wrapped

/-! ## All lines -/

theorem breaks_le_foldl_step (style : DumpStyle) (write : V → String) (dump : Dump)
    (walk : List (Visit V)) :
    breaks dump.text ≤ breaks (walk.foldl (Dump.step style write) dump).text := by
  induction walk generalizing dump with
  | nil => exact Nat.le_refl _
  | cons visit rest inductionHypothesis =>
      exact Nat.le_trans (breaks_le_step style dump write visit) (inductionHypothesis _)

/-- The lines of the rest of a walk, one after another, hold the whole of it. -/
theorem flatMap_stepsOn (style : DumpStyle) (write : V → String) (dump : Dump)
    (walk : List (Visit V)) :
    (List.range' (breaks dump.text)
        (breaks (walk.foldl (Dump.step style write) dump).text + 1 - breaks dump.text)).flatMap
      (fun number => stepsOn style write number dump walk) = walk := by
  induction walk generalizing dump with
  | nil => exact List.flatMap_eq_nil_iff.mpr fun _ _ => rfl
  | cons visit rest inductionHypothesis =>
      have onward := inductionHypothesis (dump.step style write visit)
      have first := breaks_le_step style dump write visit
      have last := breaks_le_foldl_step style write (dump.step style write visit) rest
      rw [List.foldl_cons]
      generalize breaks (rest.foldl (Dump.step style write) (dump.step style write visit)).text =
        final at onward last
      generalize reached : breaks (dump.step style write visit).text = here at onward first last
      have skipped : ∀ number ∈ List.range' (breaks dump.text) (here - breaks dump.text),
          stepsOn style write number dump (visit :: rest) = [] := by
        intro number member
        have above := (List.mem_range'_1.mp member).2
        rw [stepsOn, reached, if_neg (by omega)]
        exact stepsOn_of_lt (by omega) rest
      have later : ∀ number ∈ List.range' (here + 1) (final - here),
          stepsOn style write number dump (visit :: rest) =
            stepsOn style write number (dump.step style write visit) rest := by
        intro number member
        have below := (List.mem_range'_1.mp member).1
        rw [stepsOn, reached, if_neg (by omega)]
      have count : final + 1 - breaks dump.text =
          (here - breaks dump.text) + ((final - here) + 1) := by omega
      have start : breaks dump.text + (here - breaks dump.text) = here := by omega
      have whole : final + 1 - here = (final - here) + 1 := by omega
      rw [whole, List.range'_succ, List.flatMap_cons] at onward
      rw [count, ← List.range'_append_1, start, List.flatMap_append,
        List.flatMap_eq_nil_iff.mpr skipped, List.nil_append, List.range'_succ, List.flatMap_cons,
        List.flatMap_congr later, stepsOn, reached, if_pos rfl, List.cons_append, onward]

theorem stepsOn_sublist (style : DumpStyle) (write : V → String) (number : Nat) (dump : Dump)
    (walk : List (Visit V)) : (stepsOn style write number dump walk).Sublist walk := by
  induction walk generalizing dump with
  | nil => exact List.Sublist.refl []
  | cons visit rest inductionHypothesis =>
      rw [stepsOn]
      split_ifs
      · exact (inductionHypothesis _).cons_cons visit
      · exact (inductionHypothesis _).cons visit

end Dump

/-! ## Lines that are full -/

/-- A module with a name of one letter. -/
def bud : Module V := .plain ⟨"A"⟩

/-- Branches inside branches.  In front of each there are as many buds as a line may hold, and
in the innermost one there is one more. -/
def Forest.stairs (limit : Nat) : Nat → Forest V
  | 0 => List.replicate (limit + 1) (.leaf bud)
  | branches + 1 => List.replicate limit (.leaf bud) ++ [.branch (stairs limit branches)]

@[simp]
theorem Forest.visits_buds (count : Nat) :
    Forest.visits (List.replicate count (.leaf (bud : Module V))) =
      List.replicate count (.leaf bud) := by
  induction count with
  | zero => rfl
  | succ count inductionHypothesis => simp [List.replicate_succ, inductionHypothesis]

@[simp]
theorem Forest.leaves_buds (count : Nat) :
    Forest.leaves (List.replicate count (.leaf (bud : Module V))) = List.replicate count bud := by
  induction count with
  | zero => rfl
  | succ count inductionHypothesis => simp [List.replicate_succ, inductionHypothesis]

theorem Forest.eq_bud_of_mem_stairs {limit branches : Nat} {letter : Module V}
    (member : letter ∈ Forest.leaves (stairs limit branches)) : letter = bud := by
  induction branches with
  | zero => simpa [stairs] using member
  | succ branches inductionHypothesis =>
      rw [stairs, leaves_append, leaves_buds] at member
      rcases List.mem_append.mp member with before | inside
      · exact List.eq_of_mem_replicate before
      · exact inductionHypothesis (by simpa using inside)

theorem Forest.branchStarts_stairs (limit branches : Nat) :
    branchStarts (Forest.visits (stairs limit branches : Forest V)) = branches := by
  have buds (count : Nat) :
      branchStarts (Forest.visits (List.replicate count (.leaf (bud : Module V)))) = 0 := by
    rw [visits_buds, branchStarts, List.countP_replicate]
    rfl
  induction branches with
  | zero => exact buds (limit + 1)
  | succ branches inductionHypothesis =>
      have before := buds limit
      have inside : branchStarts (Forest.visits [.branch (stairs limit branches : Forest V)]) =
          branchStarts (Forest.visits (stairs limit branches : Forest V)) + 1 := by
        simp [branchStarts]
      rw [branchStarts] at before inside
      rw [stairs, visits_append, branchStarts, List.countP_append, before, inside,
        inductionHypothesis, Nat.zero_add]

namespace Dump

section Stairs

variable {style : DumpStyle} {limit : Nat} (wrapped : style.wrap = some limit)
variable (plain : unit? style = none) (separated : IsLine style.separator)
variable (write : V → String) {dump : Dump}

include wrapped plain separated

/-- As long as there is room, a step that closes nothing stays on the line. -/
theorem step_stays (unclosed : dump.closed = false) (within : dump.column ≤ limit)
    (visit : Visit V) (unclosing : visit.symbol ≠ .closing) (line : IsLine (word write visit)) :
    (dump.step style write visit).closed = false ∧
      (dump.step style write visit).column =
        (if visit.symbol = .opening then 0 else dump.column + 1) ∧
      breaks (dump.step style write visit).text = breaks dump.text := by
  have shifted : dump.shift style visit.symbol = dump := by
    rw [shift, plain]
    rfl
  have unbroken : dump.wrapLine style = dump := by
    rw [wrapLine, wrapped]
    exact if_neg (Nat.not_lt.mpr within)
  have resumed : (dump.separate style).resume style = dump.separate style := by
    rw [resume, separate_eq, Dump.write, unclosed]
    rfl
  have silent : breaks (if 0 < dump.column then style.separator else "") = 0 := by
    split_ifs
    · exact breaks_of_isLine separated
    · exact breaks_of_isLine isLine_empty
  rw [step, shifted, unbroken, if_neg unclosing, resumed, separate_eq]
  refine ⟨?_, rfl, ?_⟩
  · simp [advance, Dump.write, unclosed, plain]
  · simp only [advance, Dump.write, breaks_append, silent, breaks_of_isLine line, Nat.add_zero]

/-- Buds stay on the line as long as there is room. -/
theorem moduleCount_buds (unclosed : dump.closed = false) {count : Nat}
    (within : dump.column + count ≤ limit + 1) :
    ∃ after : Dump, after.closed = false ∧ after.column = dump.column + count ∧
      breaks after.text = breaks dump.text ∧
      ∀ rest : List (Visit V),
        moduleCount (stepsOn style write (breaks dump.text) dump
            (List.replicate count (.leaf bud) ++ rest)) =
          count + moduleCount (stepsOn style write (breaks dump.text) after rest) := by
  induction count generalizing dump with
  | zero => exact ⟨dump, unclosed, rfl, rfl, fun rest => (Nat.zero_add _).symm⟩
  | succ count inductionHypothesis =>
      rcases step_stays wrapped plain separated write unclosed (by omega) (.leaf bud)
        (by decide : (⟨"A"⟩ : Symbol) ≠ .closing) (by decide : IsLine "A") with
        ⟨stillUnclosed, column, stays⟩
      have next : (dump.step style write (.leaf bud)).column = dump.column + 1 := column
      rcases inductionHypothesis stillUnclosed (by omega) with
        ⟨after, closed, reached, onLine, counted⟩
      refine ⟨after, closed, by omega, onLine.trans stays, ?_⟩
      intro rest
      rw [List.replicate_succ, List.cons_append, stepsOn, if_pos stays, moduleCount,
        List.countP_cons_of_pos rfl, ← moduleCount, ← stays, counted]
      omega

/-- All buds of the stairs are on one line. -/
theorem le_moduleCount_stairs (dump : Dump) (unclosed : dump.closed = false)
    (empty : dump.column = 0) (branches : Nat) (rest : List (Visit V)) :
    limit * (branches + 1) + 1 ≤
      moduleCount (stepsOn style write (breaks dump.text) dump
        (Forest.visits (Forest.stairs limit branches) ++ rest)) := by
  induction branches generalizing dump rest with
  | zero =>
      rcases moduleCount_buds wrapped plain separated write unclosed
        (by omega : dump.column + (limit + 1) ≤ limit + 1) with ⟨after, -, -, -, counted⟩
      rw [Forest.stairs, Forest.visits_buds, counted]
      omega
  | succ branches inductionHypothesis =>
      rcases moduleCount_buds wrapped plain separated write unclosed
        (by omega : dump.column + limit ≤ limit + 1) with
        ⟨after, closed, reached, onLine, counted⟩
      rcases step_stays wrapped plain separated write closed (by omega) .enter
        Symbol.opening_ne_closing (by decide : IsLine "[") with
        ⟨entered, column, stays⟩
      have inside := inductionHypothesis _ entered column (.exit :: rest)
      rw [stays, onLine] at inside
      rw [Forest.stairs, Forest.visits_append, Forest.visits_buds, List.append_assoc, counted,
        Forest.visits, Forest.visits, Element.visits, List.append_nil, List.cons_append,
        List.append_assoc, List.singleton_append, stepsOn, if_pos (stays.trans onLine), moduleCount,
        List.countP_cons_of_neg Bool.false_ne_true, ← moduleCount, Nat.mul_succ]
      omega

end Stairs

end Dump

/-! ## How full lines are -/

/-- How many modules the lines of wrapped dumps hold. -/
structure DumpStyle.FillsLines (separator : String) (indent : Option String) (limit : Nat)
    (write : V → String) : Prop where
  /-- The lines of a dump, of which there is one more than there are line breaks, hold the
  whole walk in order. -/
  whole : ∀ forest : Forest V,
    (List.range (breaks (Forest.dump ⟨separator, indent, some limit⟩ write forest) + 1)).flatMap
      (Forest.line ⟨separator, indent, some limit⟩ write forest) = Forest.visits forest
  /-- A line holds up to one module more than the limit, and the limit once more for each
  branch that begins on it.  Modules that spell the beginning of a branch do not count. -/
  bounded : ∀ (forest : Forest V) (number : Nat),
    moduleCount (Forest.line ⟨separator, indent, some limit⟩ write forest number) ≤
      limit * branchStarts (Forest.line ⟨separator, indent, some limit⟩ write forest number) +
        spelledStarts (Forest.line ⟨separator, indent, some limit⟩ write forest number) +
        (limit + 1)
  /-- Where branches are indented, it is up to one more than the limit on any line. -/
  indented : indent.getD "" ≠ "" → ∀ (forest : Forest V) (number : Nat),
    moduleCount (Forest.line ⟨separator, indent, some limit⟩ write forest number) ≤
      spelledStarts (Forest.line ⟨separator, indent, some limit⟩ write forest number) +
        (limit + 1)
  /-- In a forest without bracket modules there is nothing that does not count. -/
  spelled : ∀ forest : Forest V, forest.Unbracketed → ∀ number,
    spelledStarts (Forest.line ⟨separator, indent, some limit⟩ write forest number) = 0
  /-- Where branches are not indented, there is a line with as many modules as that, for any
  number of branches. -/
  full : indent.getD "" = "" → IsLine separator → ∀ branches, ∃ forest : Forest V,
    forest.Unbracketed ∧ forest.IsWrittenInLines write ∧
      branchStarts (Forest.visits forest) = branches ∧
      limit * (branches + 1) + 1 ≤
        moduleCount (Forest.line ⟨separator, indent, some limit⟩ write forest 0)

theorem Forest.moduleCount_line_le {style : DumpStyle} {limit : Nat}
    (wrapped : style.wrap = some limit) (write : V → String) (forest : Forest V) (number : Nat) :
    moduleCount (forest.line style write number) ≤
      Dump.refill style limit * branchStarts (forest.line style write number) +
        spelledStarts (forest.line style write number) + (limit + 1) :=
  Nat.le_trans
    (Dump.moduleCount_stepsOn_le wrapped write number .blank (Forest.visits forest))
    (Nat.add_le_add_left (Dump.room_le limit number .blank) _)

theorem Dump.unit?_isSome_iff {style : DumpStyle} :
    (unit? style).isSome = true ↔ style.indent.getD "" ≠ "" := by
  rw [Option.isSome_iff_ne_none, ne_eq, unit?_eq_none_iff]

theorem Forest.spelledStarts_line {forest : Forest V} (unbracketed : forest.Unbracketed)
    (style : DumpStyle) (write : V → String) (number : Nat) :
    spelledStarts (forest.line style write number) = 0 := by
  rw [spelledStarts, List.countP_eq_zero]
  intro visit member spells
  have met := (Dump.stepsOn_sublist style write number .blank (visits forest)).subset member
  rw [Bool.and_eq_true, decide_eq_true_eq] at spells
  cases visit with
  | enter => cases spells.1
  | exit => cases spells.1
  | leaf letter => exact (unbracketed letter (mem_leaves_of_mem_visits met)).1 spells.2

/-- Wrapping bounds the number of modules on a line, but only between the beginnings of
branches. -/
theorem DumpStyle.fillsLines (separator : String) (indent : Option String) (limit : Nat)
    (write : V → String) : FillsLines separator indent limit write where
  whole := by
    intro forest
    have opened : breaks "[" = 0 := by decide
    have closed : breaks "]" = 0 := by decide
    have all := Dump.flatMap_stepsOn ⟨separator, indent, some limit⟩ write .blank
      (Forest.visits forest)
    rw [Forest.dump, breaks_append, breaks_append, opened, closed, Nat.zero_add, Nat.add_zero,
      List.range_eq_range']
    exact all
  bounded := by
    intro forest number
    have refill : Dump.refill ⟨separator, indent, some limit⟩ limit ≤ limit := by
      rw [Dump.refill]
      split_ifs
      · exact Nat.zero_le limit
      · exact Nat.le_refl limit
    apply Nat.le_trans (Forest.moduleCount_line_le rfl write forest number)
    apply Nat.add_le_add_right
    apply Nat.add_le_add_right
    exact Nat.mul_le_mul_right _ refill
  indented := by
    intro indented forest number
    have refill : Dump.refill ⟨separator, indent, some limit⟩ limit = 0 :=
      if_pos (Dump.unit?_isSome_iff.mpr indented)
    have wrapped : DumpStyle.wrap ⟨separator, indent, some limit⟩ = some limit := rfl
    have bounded := Forest.moduleCount_line_le wrapped write forest number
    rw [refill, Nat.zero_mul, Nat.zero_add] at bounded
    exact bounded
  spelled _ unbracketed number := Forest.spelledStarts_line unbracketed _ write number
  full := by
    intro unindented separated branches
    have plain : Dump.unit? ⟨separator, indent, some limit⟩ = none :=
      Dump.unit?_eq_none_iff.mpr unindented
    have held := Dump.le_moduleCount_stairs rfl plain separated write .blank rfl rfl branches []
    rw [List.append_nil] at held
    refine ⟨Forest.stairs limit branches, ?_, ?_,
      Forest.branchStarts_stairs limit branches, held⟩
    · intro letter member
      rw [Forest.eq_bud_of_mem_stairs member]
      exact (by decide : (⟨"A"⟩ : Symbol) ≠ .opening ∧ (⟨"A"⟩ : Symbol) ≠ .closing)
    · intro letter member
      rw [Forest.eq_bud_of_mem_stairs member]
      exact ⟨(by decide : IsLine "A"), List.forall_mem_nil _⟩

/-- A hedge with two modules in front of a branch and two inside. -/
def thicket : Forest Nat :=
  [.leaf bud, .leaf bud, .branch [.leaf bud, .leaf bud]]

/-- A line may hold more than one module above the limit, and is not broken then. -/
theorem thicket_overfills :
    IsLine ", " ∧ thicket.IsWrittenInLines Nat.repr ∧ thicket.Unbracketed ∧
      Forest.dump ⟨", ", none, some 2⟩ Nat.repr thicket = "[A, A, [A, A]]" ∧
      moduleCount (Forest.line ⟨", ", none, some 2⟩ Nat.repr thicket 0) = 4 ∧
      ¬ moduleCount (Forest.line ⟨", ", none, some 2⟩ Nat.repr thicket 0) ≤ 2 + 1 := by
  decide

end LSystem
