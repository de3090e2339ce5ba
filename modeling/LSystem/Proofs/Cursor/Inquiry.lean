import LSystem.Proofs.Cursor.Bookkeeping

namespace LSystem

/-!
# Inquiries

Whoever matches a rule asks a cursor one thing after another, and what is asked
next depends on the answers so far.  An inquiry is such a course of calls.  Main
statement: an inquiry comes to the same result on a bookmark as on the cursor
that the bookmark stands for.
-/

variable {V α β : Type}

/-- A course of calls, each of which may depend on the answers before it, and
the result that they lead to. -/
inductive Inquiry (V α : Type) where
  | done (result : α)
  | ask (call : Cursor.Call) (further : Cursor.Reply V → Inquiry V α)

namespace Inquiry

/-- Goes on from the result of an inquiry. -/
def bind (inquiry : Inquiry V α) (onward : α → Inquiry V β) : Inquiry V β :=
  match inquiry with
  | .done result => onward result
  | .ask call further => .ask call fun reply => (further reply).bind onward

/-- Makes something of the result of an inquiry. -/
def map (make : α → β) (inquiry : Inquiry V α) : Inquiry V β :=
  inquiry.bind fun result => .done (make result)

/-- Asks in a direction and goes on from the module found. -/
def toward (direction : Direction) (onward : Option (Module V) → Inquiry V α) : Inquiry V α :=
  .ask (.navigate direction) fun reply =>
    match reply with
    | .found letter => onward letter
    | _ => onward none

end Inquiry

/-! ## Asking a cursor -/

namespace Cursor

variable (ignore : List Symbol)

/-- Asks a cursor, and tells the result and where that has left the cursor. -/
def pursue : Inquiry V α → Cursor V → α × Cursor V
  | .done result, cursor => (result, cursor)
  | .ask call further, cursor =>
      let (reply, moved) := cursor.perform ignore call
      pursue (further reply) moved

@[simp]
theorem pursue_bind (inquiry : Inquiry V α) (onward : α → Inquiry V β) (cursor : Cursor V) :
    pursue ignore (inquiry.bind onward) cursor =
      pursue ignore (onward (pursue ignore inquiry cursor).1) (pursue ignore inquiry cursor).2 := by
  induction inquiry generalizing cursor with
  | done result => rfl
  | ask call further inductionHypothesis => exact inductionHypothesis _ _

@[simp]
theorem pursue_map (make : α → β) (inquiry : Inquiry V α) (cursor : Cursor V) :
    pursue ignore (inquiry.map make) cursor =
      (make (pursue ignore inquiry cursor).1, (pursue ignore inquiry cursor).2) := by
  simp [Inquiry.map, pursue]

@[simp]
theorem pursue_toward (direction : Direction) (onward : Option (Module V) → Inquiry V α)
    (cursor : Cursor V) :
    pursue ignore (.toward direction onward) cursor =
      pursue ignore (onward (cursor.navigate ignore direction).1)
        (cursor.navigate ignore direction).2 := rfl

end Cursor

/-! ## Asking a bookmark -/

namespace Bookmark

/-- Asks a bookmark, which has no result if one of its calls has none. -/
def pursue (forest : Forest V) (ignore : List Symbol) :
    Inquiry V α → Bookmark → Option (α × Bookmark)
  | .done result, mark => some (result, mark)
  | .ask call further, mark => do
      let (reply, moved) ← mark.perform forest ignore call
      pursue forest ignore (further reply) moved

/-- An inquiry comes to a result, and the cursor that the bookmark stands for
comes to the same one. -/
theorem WellFormed.pursue {forest : Forest V} {mark : Bookmark}
    (wellFormed : mark.WellFormed forest) (ignore : List Symbol) (inquiry : Inquiry V α) :
    ∃ result after, Bookmark.pursue forest ignore inquiry mark = some (result, after) ∧
      after.WellFormed forest ∧
      Cursor.pursue ignore inquiry (mark.cursor forest) = (result, after.cursor forest) := by
  induction inquiry generalizing mark with
  | done result => exact ⟨result, mark, rfl, wellFormed, rfl⟩
  | ask call further inductionHypothesis =>
      rcases wellFormed.perform ignore call with ⟨reply, moved, first, fits, sameFirst⟩
      rcases inductionHypothesis reply fits with ⟨result, last, later, fitsLast, sameLater⟩
      refine ⟨result, last, ?_, fitsLast, ?_⟩
      · simp only [Bookmark.pursue, first, later, Option.bind_eq_bind, Option.bind_some]
      · simp only [Cursor.pursue, sameFirst, sameLater]

end Bookmark
end LSystem
