import LSystem.Dump
import LSystem.Proofs.Development.Operation

namespace LSystem

/-!
# Interactions

A host performs operations, which may change a system, and asks questions, which
never do.  Both get an answer.  A transcript of interactions holds all answers,
and with each of them the system that it comes from, so two hosts with the same
transcript have no way of telling their systems apart.
-/

/-- What a host can ask of a system. -/
inductive Question (V : Type) where
  | start
  | dump (style : DumpStyle) (write : V → String)
  | isGenerating
  | isRendering

/-- What a host is told. -/
inductive Answer (V : Type) where
  | outcome (outcome : Except Fault (Option Nat))
  | forest (forest : Forest V)
  | text (text : String)
  | verdict (holds : Bool)

/-- What a host can do with a system, or ask of it. -/
inductive Interaction (V σ : Type) where
  | perform (operation : Operation V σ)
  | ask (question : Question V)

variable {V σ : Type}

/-- Answers a question. -/
def Question.answer (system : Development V σ) : Question V → Answer V
  | start => .forest system.start
  | dump style write => .text (Forest.dump style write system.current)
  | isGenerating => .verdict system.isGenerating
  | isRendering => .verdict system.isRendering

namespace Interaction

/-- The answer of a system, and what has become of the system. -/
def respond (system : Development V σ) : Interaction V σ → Answer V × Development V σ
  | perform operation => (.outcome (operation.perform system).1, (operation.perform system).2)
  | ask question => (question.answer system, system)

/-- What has become of a system after interactions one after another. -/
def respondAll (interactions : List (Interaction V σ)) (system : Development V σ) :
    Development V σ :=
  interactions.foldl (fun system interaction => (interaction.respond system).2) system

/-- All that comes of interactions one after another. -/
def transcript : List (Interaction V σ) → Development V σ → List (Answer V × Development V σ)
  | [], _ => []
  | interaction :: rest, system =>
      interaction.respond system :: transcript rest (interaction.respond system).2

end Interaction

/-! ## Interactions about renderings -/

/-- Whether an operation is about renderings or about the actions that they call. -/
def Operation.concernsRendering : Operation V σ → Bool
  | bind _ _ => true
  | unbind _ => true
  | render => true
  | beginRendering => true
  | stepRendering => true
  | advanceRendering _ => true
  | _ => false

def Question.concernsRendering : Question V → Bool
  | isRendering => true
  | _ => false

def Interaction.concernsRendering : Interaction V σ → Bool
  | perform operation => operation.concernsRendering
  | ask question => question.concernsRendering

end LSystem
