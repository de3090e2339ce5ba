import LSystem.Dump
import LSystem.Proofs.Cursor.Bookkeeping

namespace LSystem

/-!
# Typesetting dumps

A dump in progress counts how deep inside branches it is.  A typesetter keeps the margin
itself, as text: where a branch begins it puts one unit more behind the margin, and where
one ends it cuts off as many bytes as a unit has.  It finds its way with a bookmark.  There
is no result if a cut goes through a character, or if a step is refused.  Main statement:
there always is a result, and it is the dump.
-/

variable {V : Type}

/-! ## Cutting texts -/

/-- The first bytes of a text.  They must not end inside a character. -/
def cut? (length : Nat) (text : String) : Option String :=
  String.fromUTF8? (text.toByteArray.extract 0 length)

/-- What has been put behind a text can be cut off again. -/
@[simp]
theorem cut?_append (text rest : String) :
    cut? text.utf8ByteSize (text ++ rest) = some text := by
  have kept : (text ++ rest).toByteArray.extract 0 text.utf8ByteSize = text.toByteArray := by
    rw [String.toByteArray_append]
    exact ByteArray.extract_append_eq_left String.size_toByteArray.symm
  rw [cut?, kept, String.fromUTF8?, dif_pos text.isValidUTF8]
  rfl

example : cut? 3 "aé→" = some "aé" ∧ cut? 4 "aé→" = none ∧ cut? 9 "aé→" = some "aé→" := by decide

/-! ## Margins -/

/-- The margin at some depth. -/
def margin (unit : String) (depth : Nat) : String := String.join (List.replicate depth unit)

@[simp]
theorem margin_succ (unit : String) (depth : Nat) :
    margin unit (depth + 1) = margin unit depth ++ unit := by
  simp [margin, List.replicate_succ']

@[simp]
theorem margin_empty (depth : Nat) : margin "" depth = "" := by
  induction depth with
  | zero => rfl
  | succ depth inductionHypothesis => simp [inductionHypothesis]

/-- Cutting off a unit reduces the depth, and leaves an empty margin alone. -/
theorem cut?_margin (unit : String) (depth : Nat) :
    cut? ((margin unit depth).utf8ByteSize - unit.utf8ByteSize) (margin unit depth) =
      some (margin unit (depth - 1)) := by
  cases depth with
  | zero =>
      have nothing : cut? 0 "" = some "" := cut?_append "" ""
      have empty : margin unit 0 = "" := rfl
      rw [empty, String.utf8ByteSize_empty, Nat.zero_sub, nothing]
  | succ depth => simp

/-! ## Typesetting -/

/-- What a typesetter has set so far, with the margin and the number of elements on the
line, and whether it has just set the end of a branch. -/
structure Galley where
  margin : String
  column : Nat
  closed : Bool
  text : String

namespace Galley

/-- Only the bracket around the whole dump has been set. -/
def blank : Galley := ⟨"", 0, false, "["⟩

def put (text : String) (galley : Galley) : Galley := { galley with text := galley.text ++ text }

def separate (style : DumpStyle) (galley : Galley) : Galley :=
  if 0 < galley.column then galley.put style.separator else galley

def breakLine (galley : Galley) : Galley := galley.put ("\n" ++ galley.margin)

/-- Moves the margin where a branch begins or ends. -/
def shift? (style : DumpStyle) (symbol : Symbol) (galley : Galley) : Option Galley :=
  match Dump.unit? style with
  | none => some galley
  | some unit =>
      if symbol = .opening then
        let galley := galley.separate style
        some { ({ galley with margin := galley.margin ++ unit }).breakLine with column := 0 }
      else if symbol = .closing then
        (cut? (galley.margin.utf8ByteSize - unit.utf8ByteSize) galley.margin).map fun margin =>
          { galley with margin }
      else some galley

def wrapLine (style : DumpStyle) (galley : Galley) : Galley :=
  match style.wrap with
  | none => galley
  | some limit =>
      if limit < galley.column then
        { (galley.put style.separator).breakLine with column := 0 }
      else galley

def resume (galley : Galley) : Galley :=
  if galley.closed then { galley.breakLine with closed := false } else galley

def advance (style : DumpStyle) (symbol : Symbol) (galley : Galley) : Galley :=
  { galley with
    column := if symbol = .opening then 0 else galley.column + 1
    closed := galley.closed || ((Dump.unit? style).isSome && symbol = .closing) }

/-- Sets one step of a walk. -/
def step? (style : DumpStyle) (write : V → String) (galley : Galley) (visit : Visit V) :
    Option Galley := do
  let galley := (← galley.shift? style visit.symbol).wrapLine style
  let galley := if visit.symbol = .closing then galley else galley.separate style
  some ((galley.resume.put (Dump.word write visit)).advance style visit.symbol)

/-- What a typesetter has set of a dump in progress. -/
def of (style : DumpStyle) (dump : Dump) : Galley :=
  ⟨LSystem.margin ((Dump.unit? style).getD "") dump.depth, dump.column, dump.closed,
    "[" ++ dump.text⟩

variable (style : DumpStyle)

theorem blank_eq : blank = of style .blank := rfl

@[simp]
theorem put_of (text : String) (dump : Dump) :
    (of style dump).put text = of style (dump.write text) := by
  simp [put, of, Dump.write, String.append_assoc]

@[simp]
theorem separate_of (dump : Dump) :
    (of style dump).separate style = of style (dump.separate style) := by
  rw [separate, put_of, Dump.separate, apply_ite (of style)]
  rfl

@[simp]
theorem breakLine_of (dump : Dump) : (of style dump).breakLine = of style (dump.breakLine style) :=
  put_of style _ dump

@[simp]
theorem wrapLine_of (dump : Dump) :
    (of style dump).wrapLine style = of style (dump.wrapLine style) := by
  rw [wrapLine, Dump.wrapLine, put_of, breakLine_of]
  cases style.wrap with
  | none => rfl
  | some limit =>
      dsimp only
      rw [apply_ite (of style)]
      rfl

@[simp]
theorem resume_of (dump : Dump) : (of style dump).resume = of style (dump.resume style) := by
  rw [resume, Dump.resume, breakLine_of, apply_ite (of style)]
  rfl

/-- The margin can always be moved. -/
@[simp]
theorem shift?_of (symbol : Symbol) (dump : Dump) :
    (of style dump).shift? style symbol = some (of style (dump.shift style symbol)) := by
  rw [shift?, Dump.shift, separate_of]
  cases indented : Dump.unit? style with
  | none => rfl
  | some unit =>
      dsimp only [Option.isNone_some]
      rw [if_neg Bool.false_ne_true]
      by_cases opening : symbol = .opening
      · have further : ({ of style (dump.separate style) with
            margin := (of style (dump.separate style)).margin ++ unit } : Galley) =
              of style { dump.separate style with depth := (dump.separate style).depth + 1 } := by
          rw [of, of, indented, Option.getD_some, margin_succ]
        rw [if_pos opening, if_pos opening, further, breakLine_of]
        rfl
      · rw [if_neg opening, if_neg opening]
        by_cases closing : symbol = .closing
        · have back : cut? ((of style dump).margin.utf8ByteSize - unit.utf8ByteSize)
              (of style dump).margin = some (LSystem.margin unit (dump.depth - 1)) := by
            rw [of, indented]
            exact cut?_margin unit dump.depth
          rw [if_pos closing, if_pos closing, back, Option.map_some, of, of, indented,
            Option.getD_some]
        · rw [if_neg closing, if_neg closing]

@[simp]
theorem advance_of (symbol : Symbol) (dump : Dump) :
    (of style dump).advance style symbol = of style (dump.advance style symbol) := rfl

/-- A typesetter takes the same steps as a dump. -/
@[simp]
theorem step?_of (write : V → String) (dump : Dump) (visit : Visit V) :
    (of style dump).step? style write visit = some (of style (dump.step style write visit)) := by
  by_cases closing : visit.symbol = .closing
  · simp [step?, Dump.step, closing]
  · simp [step?, Dump.step, closing]

end Galley

/-! ## A whole dump -/

/-- Sets the rest of a walk, which must not be longer than the limit. -/
def typeset? (style : DumpStyle) (write : V → String) (forest : Forest V) :
    Nat → Bookmark → Galley → Option String
  | 0, mark, galley => do
      if ← mark.hasNext forest then none else some (galley.text ++ "]")
  | limit + 1, mark, galley => do
      if ← mark.hasNext forest then
        match ← mark.next forest with
        | .error _ => none
        | .ok (visit, after) =>
            typeset? style write forest limit after (← galley.step? style write visit)
      else some (galley.text ++ "]")

namespace Bookmark.WellFormed

variable {forest : Forest V} {mark : Bookmark}

/-- A bookmark with visits ahead makes the next of them. -/
theorem exists_visit (wellFormed : mark.WellFormed forest) {visit : Visit V}
    {further : List (Visit V)}
    (ahead : (mark.cursor forest).position.ahead = visit :: further) :
    ∃ after, mark.next forest = some (.ok (visit, after)) ∧ after.WellFormed forest ∧
      (after.cursor forest).position.ahead = further := by
  rcases wellFormed.exists_next with ⟨result, walked, same, fits⟩
  rcases taken : (mark.cursor forest).position.step? with _ | ⟨made, place⟩
  · rw [Place.step?_eq_none_iff.mp taken] at ahead
    cases ahead
  · have step := Place.step?_eq_some_iff.mp taken
    rw [step.ahead] at ahead
    cases ahead
    rw [Cursor.next, taken] at same
    rcases result with violation | ⟨other, after⟩
    · cases same
    · rcases Prod.mk.inj (Except.ok.inj same) with ⟨rfl, moved⟩
      exact ⟨after, walked, fits _ after rfl,
        congrArg (fun cursor => cursor.position.ahead) moved.symm⟩

end Bookmark.WellFormed

/-- From any place on, typesetting has a result: what has been set, and the dump of the
visits ahead. -/
theorem typeset?_eq (style : DumpStyle) (write : V → String) {forest : Forest V} {limit : Nat}
    {mark : Bookmark} (wellFormed : mark.WellFormed forest)
    (within : (mark.cursor forest).position.ahead.length ≤ limit) (dump : Dump) :
    typeset? style write forest limit mark (.of style dump) =
      some ("[" ++
        ((mark.cursor forest).position.ahead.foldl (Dump.step style write) dump).text ++ "]") := by
  induction limit generalizing mark dump with
  | zero =>
      have nothing := List.length_eq_zero_iff.mp (Nat.le_zero.mp within)
      have finished : (mark.cursor forest).hasNext = false := by
        rw [← Bool.not_eq_true, Cursor.hasNext_iff]
        omega
      rw [typeset?, wellFormed.hasNext, finished, nothing]
      rfl
  | succ limit inductionHypothesis =>
      rw [typeset?, wellFormed.hasNext]
      rcases ahead : (mark.cursor forest).position.ahead with _ | ⟨visit, further⟩
      · have finished : (mark.cursor forest).hasNext = false := by
          rw [← Bool.not_eq_true, Cursor.hasNext_iff, ahead, List.length_nil]
          omega
        rw [finished]
        rfl
      · have running : (mark.cursor forest).hasNext = true := by
          rw [Cursor.hasNext_iff, ahead, List.length_cons]
          omega
        rcases wellFormed.exists_visit ahead with ⟨after, walked, fits, onward⟩
        rw [ahead, List.length_cons] at within
        have rest := inductionHypothesis fits (by rw [onward]; omega) (dump.step style write visit)
        rw [onward] at rest
        simp [running, walked, rest]

/-- Typesetting a forest has the dump as its result. -/
theorem typeset?_start (style : DumpStyle) (write : V → String) (forest : Forest V) :
    typeset? style write forest (Forest.size forest) .start .blank =
      some (Forest.dump style write forest) := by
  have ahead : (Bookmark.start.cursor forest).position.ahead = Forest.visits forest := by
    simp [Cursor.start]
  have within := Nat.le_of_eq (Forest.length_visits forest)
  rw [← ahead] at within
  rw [Galley.blank_eq style, typeset?_eq style write (Bookmark.wellFormed_start forest) within,
    ahead, Forest.dump]

end LSystem
