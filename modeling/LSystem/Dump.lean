import LSystem.Forest.Visit

namespace LSystem

/-!
# Dumps

A dump is the text of a generation for readers.  It is written along the walk
over the forest: the symbol of each step, with the arguments behind it, and in
between separators and line breaks as a style asks for them.  Since only the
symbols of the steps count, a branch and a branch spelled with bracket modules
look the same.
-/

/-- How a dump is laid out. -/
structure DumpStyle where
  /-- Stands between consecutive elements. -/
  separator : String
  /-- One unit of indentation.  With it every branch begins on a new line. -/
  indent : Option String
  /-- With it a line that holds more elements than this is broken. -/
  wrap : Option Nat

/-- Everything on one line, with commas in between. -/
def DumpStyle.plain : DumpStyle := ⟨", ", none, none⟩

/-- A dump in progress: how deep inside branches it is, how many elements the
line holds, whether a branch has just been closed, and the text so far. -/
structure Dump where
  depth : Nat
  column : Nat
  closed : Bool
  text : String

namespace Dump

variable {V : Type}

/-- Nothing has been written yet. -/
def blank : Dump := ⟨0, 0, false, ""⟩

/-- The symbol of a step and, if there are any, its arguments. -/
def word (write : V → String) (visit : Visit V) : String :=
  match visit.arguments with
  | [] => visit.symbol.text
  | arguments => visit.symbol.text ++ "(" ++ ", ".intercalate (arguments.map write) ++ ")"

/-- An empty unit of indentation is none. -/
def unit? (style : DumpStyle) : Option String :=
  style.indent.filter fun unit => !unit.isEmpty

def write (dump : Dump) (text : String) : Dump := { dump with text := dump.text ++ text }

/-- Separates from what the line holds already, if it holds anything. -/
def separate (style : DumpStyle) (dump : Dump) : Dump :=
  if 0 < dump.column then dump.write style.separator else dump

/-- Starts a new line at the margin. -/
def breakLine (style : DumpStyle) (dump : Dump) : Dump :=
  let unit := (unit? style).getD ""
  dump.write ("\n" ++ String.join (List.replicate dump.depth unit))

/-- With indentation, entering a branch starts a new line one unit further in,
and leaving it takes one unit off the lines that follow. -/
def shift (style : DumpStyle) (symbol : Symbol) (dump : Dump) : Dump :=
  if (unit? style).isNone then dump
  else if symbol = .opening then
    let dump := dump.separate style
    { ({ dump with depth := dump.depth + 1 }).breakLine style with column := 0 }
  else if symbol = .closing then { dump with depth := dump.depth - 1 }
  else dump

/-- Breaks a line that has become too long. -/
def wrapLine (style : DumpStyle) (dump : Dump) : Dump :=
  match style.wrap with
  | none => dump
  | some limit =>
      if limit < dump.column then
        { (dump.write style.separator).breakLine style with column := 0 }
      else dump

/-- What follows a closed branch goes on a line of its own. -/
def resume (style : DumpStyle) (dump : Dump) : Dump :=
  if dump.closed then { dump.breakLine style with closed := false } else dump

/-- Counts the step that has been written.  What comes first in a branch counts
as first on its line. -/
def advance (style : DumpStyle) (symbol : Symbol) (dump : Dump) : Dump :=
  { dump with
    column := if symbol = .opening then 0 else dump.column + 1
    closed := dump.closed || ((unit? style).isSome && symbol = .closing) }

/-- Writes one step of the walk.  No separator precedes the end of a branch. -/
def step (style : DumpStyle) (write : V → String) (dump : Dump) (visit : Visit V) : Dump :=
  let symbol := visit.symbol
  let dump := (dump.shift style symbol).wrapLine style
  let dump := if symbol = .closing then dump else dump.separate style
  ((dump.resume style).write (word write visit)).advance style symbol

end Dump

/-- The text of a generation, in brackets as a whole. -/
def Forest.dump {V : Type} (style : DumpStyle) (write : V → String) (forest : Forest V) : String :=
  "[" ++ ((Forest.visits forest).foldl (Dump.step style write) .blank).text ++ "]"

end LSystem
