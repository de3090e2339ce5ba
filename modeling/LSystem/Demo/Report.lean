import LSystem.Demo.Session
import LSystem.Dump

namespace LSystem

/-!
# Reports

The report on a session: its rules, what each generation did, what the turtle
measured, the last generation itself, and how long it all took.
-/

/-! ## Colours -/

/-- The ways in which the report sets text off. -/
inductive Ink where
  | bold
  | dim
  | green
  | yellow
  | blue
  | cyan
  | gray

/-- The number that selects an ink on a terminal. -/
def Ink.code : Ink → String
  | .bold => "1"
  | .dim => "2"
  | .green => "32"
  | .yellow => "33"
  | .blue => "34"
  | .cyan => "36"
  | .gray => "90"

/-- Sets text off, if colours are wanted at all. -/
def Ink.paint (ink : Ink) (colored : Bool) (text : String) : String :=
  if colored then "\x1b[" ++ ink.code ++ "m" ++ text ++ "\x1b[0m" else text

/-! ## Durations -/

namespace Duration

/-- Digits filled up on the left to a width. -/
def padLeft (width : Nat) (filler : Char) (digits : List Char) : List Char :=
  List.replicate (width - digits.length) filler ++ digits

/-- A number of nanoseconds in a unit of `10 ^ places` of them, without zeros at
the end. -/
def inUnit (places : Nat) (unit : String) (nanoseconds : Nat) : String :=
  let whole := toString (nanoseconds / Nat.pow 10 places)
  let digits := padLeft places '0' (Nat.toDigits 10 (nanoseconds % Nat.pow 10 places))
  let part := (digits.reverse.dropWhile (· = '0')).reverse
  if part.isEmpty then whole ++ unit else whole ++ "." ++ String.ofList part ++ unit

/-- Writes a duration in the largest unit that it fills. -/
def write (nanoseconds : Nat) : String :=
  if nanoseconds < 1000 then toString nanoseconds ++ "ns"
  else if nanoseconds < 1000000 then inUnit 3 "µs" nanoseconds
  else if nanoseconds < 1000000000 then inUnit 6 "ms" nanoseconds
  else inUnit 9 "s" nanoseconds

end Duration

/-! ## The report -/

/-- What there is to report, and how. -/
structure Report where
  name : String
  summary : String
  session : Session
  indent : Option String
  colored : Bool
  writeTime : Nat → String

namespace Report

/-- An empty line and the title of a part. -/
def heading (report : Report) (title : String) : List String :=
  ["", Ink.gray.paint report.colored ("━━━ " ++ title ++ " ━━━")]

/-- Divides the items of a line. -/
def bar (report : Report) : String := Ink.dim.paint report.colored "│"

/-- A number in a column, at its right edge. -/
def padded (width : Nat) (number : Nat) : String :=
  let digits := toString number
  String.ofList (List.replicate (width - digits.length) ' ') ++ digits

/-- The word for a trait. -/
def traitLabel : RuleTrait → String
  | .conditional => "conditional"
  | .contextual => "contextual"
  | .stochastic => "stochastic"

/-- The traits of a rule; a rule without any is plain. -/
def traitLabels (traits : List RuleTrait) : String :=
  if traits.isEmpty then "plain" else "+".intercalate (traits.map traitLabel)

/-- The line about one rule. -/
def ruleLine (report : Report) (rule : RuleSummary) : String :=
  "    " ++ " ".intercalate
    [Ink.gray.paint report.colored s!"#{rule.index}",
      Ink.dim.paint report.colored ("rank " ++ padded 4 rule.rank),
      Ink.yellow.paint report.colored (traitLabels rule.traits),
      Ink.dim.paint report.colored s!"{rule.successors} successor(s)"]

/-- Every rule under the signature of the modules it replaces. -/
def ruleLines (report : Report) : List String :=
  report.session.system.rules.summaries.flatMap fun (signature, rules) =>
    ("  " ++ Ink.blue.paint report.colored s!"{signature.symbol.text}/{signature.arity}") ::
      rules.map report.ruleLine

/-- The line about one completed pass. -/
def passLine (report : Report) (pass : TimedPass) : String :=
  let tally := pass.report.tally
  "  " ++ Ink.blue.paint report.colored s!"Gen {pass.report.generation}:" ++ " " ++
    Ink.green.paint report.colored s!"{tally.moduleCount} elements" ++ "  " ++ report.bar ++ " " ++
    Ink.dim.paint report.colored
      (s!"rewritten {tally.replaced} copied {tally.copied} dropped {tally.dropped} in " ++
        report.writeTime pass.nanoseconds)

/-- A line for each pass, or a remark that there was none. -/
def passLines (report : Report) : List String :=
  if report.session.passes.isEmpty then [Ink.dim.paint report.colored "  No passes run"]
  else report.session.passes.map report.passLine

/-- The lower left and the upper right corner of the box. -/
def boundsText (bounds : Bounds) : String :=
  let write := writeFixed 1
  "(" ++ write bounds.left ++ ", " ++ write bounds.bottom ++ ")..(" ++
    write bounds.right ++ ", " ++ write bounds.top ++ ")"

/-- What the rendering did and what the turtle has measured. -/
def renderLines (report : Report) : List String :=
  match report.session.system.lastRendering with
  | none => [Ink.dim.paint report.colored "  Not rendered"]
  | some tally =>
      let turtle := report.session.system.host
      let count (ink : Ink) (number : Nat) := ink.paint report.colored (toString number)
      ["  " ++ count .yellow tally.visited ++ " visited, " ++ count .yellow tally.invoked ++
          " actions invoked",
        "  " ++ count .green turtle.segments ++ " segments  " ++ report.bar ++ "  depth " ++
          count .cyan turtle.deepest ++ "  " ++ report.bar ++ "  bounds " ++
          Ink.dim.paint report.colored (boundsText turtle.bounds)]

/-- A text of at most `limit` characters as it is, and of a longer one only the
beginning and the end. -/
def elide (limit : Nat) (text : String) : String :=
  let characters := text.toList
  if characters.length ≤ limit then text
  else
    let kept := limit / 2
    String.ofList (characters.take kept) ++ " … " ++
      String.ofList (characters.drop (characters.length - kept))

/-- The longest dump that is shown whole. -/
def dumpLimit : Nat := 2000

/-- The last generation. -/
def dumpLine (report : Report) : String :=
  let style : DumpStyle := { DumpStyle.plain with indent := report.indent }
  elide dumpLimit (Forest.dump style NumberLayout.plain.write report.session.system.current)

/-- The time of all passes together, and that of the rendering. -/
def timeLine (report : Report) : String :=
  let total := (report.session.passes.map (·.nanoseconds)).foldr (· + ·) 0
  "  Generate: " ++ Ink.green.paint report.colored (report.writeTime total) ++ "  │  Render: " ++
    Ink.cyan.paint report.colored (report.writeTime report.session.renderNanoseconds)

/-- The name of the grammar and what it is. -/
def titleLine (report : Report) : String :=
  Ink.bold.paint report.colored
      (Ink.cyan.paint report.colored ("⚙  Grammar: " ++ report.name)) ++ " " ++
    Ink.dim.paint report.colored ("(" ++ report.summary ++ ")")

/-- The report line by line. -/
def lines (report : Report) : List String :=
  ["", report.titleLine] ++
    report.heading "Rules" ++ report.ruleLines ++
    report.heading "Generations" ++ report.passLines ++
    report.heading "Render" ++ report.renderLines ++
    report.heading "Current generation" ++ [report.dumpLine] ++
    report.heading "Timing" ++ [report.timeLine, ""]

/-- The whole report, every line of it ended. -/
def text (report : Report) : String := String.join (report.lines.map (· ++ "\n"))

end Report
end LSystem
