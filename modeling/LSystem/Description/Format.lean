import LSystem.Text.Quoted

namespace LSystem

/-!
# The form of descriptions

A description is a text that shows how a value is built: records with named
fields, constructors with parts, sequences and tables.
-/

namespace Description

/-- Parts with commas in between. -/
def listed (parts : List String) : String := ", ".intercalate parts

/-- A constructor with its parts in parentheses. -/
def constructed (name : String) (parts : List String) : String := name ++ "(" ++ listed parts ++ ")"

/-- A record with its fields in braces. -/
def record (name : String) (fields : List (String × String)) : String :=
  name ++ " \x7b " ++ listed (fields.map fun (label, value) => label ++ ": " ++ value) ++ " \x7d"

def sequence (items : List String) : String := "[" ++ listed items ++ "]"

/-- A table from keys to values. -/
def table (entries : List (String × String)) : String :=
  "\x7b" ++ listed (entries.map fun (key, value) => key ++ ": " ++ value) ++ "\x7d"

def optional (value : Option String) : String :=
  match value with
  | none => "None"
  | some value => constructed "Some" [value]

def boolean (value : Bool) : String := if value then "true" else "false"

/-- Stands for what cannot be shown: the functions of a host. -/
def function : String := Text.quote "<function>"

end Description
end LSystem
