import LSystem.Decimal.Binary
import LSystem.Rendering.Actions

namespace LSystem

/-!
# A measuring turtle

The turtle follows a rendering in the plane.  It draws nothing, and only
measures what it would have drawn: how many segments, in what bounds, and how
deep its branches go.  It turns by right angles, and its heading never leaves the
range of one full turn.
-/

/-! ## Angles -/

namespace Degrees

/-- What whole turns leave of an angle.  It is exact and has the sign of the angle, and
nothing is left of what is no angle. -/
def beyondTurns (angle : Float) : Float :=
  match Binary.ofFloat angle with
  | .finite negative significand exponent =>
      -- Both numbers are multiples of the smaller of one and the last place of the angle.
      let place := min exponent 0
      let turn := 360 * Nat.pow 2 place.natAbs
      let rest := (Float.ofNat (significand * Nat.pow 2 exponent.toNat % turn)).scaleB place
      if negative then -rest else rest
  | _ => 0.0 / 0.0

/-- The same direction as an angle within one turn to the left. -/
def wrap (angle : Float) : Float :=
  let rest := beyondTurns angle
  if rest < 0.0 then rest + 360.0 else rest

end Degrees

/-- A position and the heading in degrees to the left of the first axis. -/
structure Pose where
  x : Float
  y : Float
  heading : Float

/-- The box around all points that have been visited. -/
structure Bounds where
  left : Float
  bottom : Float
  right : Float
  top : Float

/-- The turtle, the poses it will return to, and what it has measured. -/
structure Turtle where
  pose : Pose
  saved : List Pose
  segments : Nat
  deepest : Nat
  bounds : Bounds

/-- The heading as an angle in radians. -/
def Pose.angle (pose : Pose) : Float :=
  pose.heading * (3.141592653589793 / 180.0)

/-- The pose at the end of a segment. -/
def Pose.ahead (length : Float) (pose : Pose) : Pose :=
  { pose with
    x := pose.x + length * pose.angle.cos
    y := pose.y + length * pose.angle.sin }

/-- The smallest box around the old one and one more point. -/
def Bounds.include (x y : Float) (bounds : Bounds) : Bounds where
  left := if x < bounds.left then x else bounds.left
  bottom := if y < bounds.bottom then y else bounds.bottom
  right := if bounds.right < x then x else bounds.right
  top := if bounds.top < y then y else bounds.top

namespace Turtle

/-- At the origin, heading along the first axis. -/
def home : Turtle := ⟨⟨0.0, 0.0, 0.0⟩, [], 0, 0, ⟨0.0, 0.0, 0.0, 0.0⟩⟩

/-- Draws a segment.  Its length is the first argument, or one without any. -/
def forward (arguments : List Float) (turtle : Turtle) : Turtle :=
  let pose := turtle.pose.ahead (arguments.head?.getD 1.0)
  { turtle with
    pose
    segments := turtle.segments + 1
    bounds := turtle.bounds.include pose.x pose.y }

/-- Turns to the left by an angle, and to the right if it is negative. -/
def turn (degrees : Float) (turtle : Turtle) : Turtle :=
  { turtle with
    pose := { turtle.pose with heading := Degrees.wrap (turtle.pose.heading + degrees) } }

/-- Remembers the pose at the foot of a branch. -/
def save (turtle : Turtle) : Turtle :=
  { turtle with
    saved := turtle.pose :: turtle.saved
    deepest := max turtle.deepest (turtle.saved.length + 1) }

/-- Returns to the foot of the branch.  Without any branch it stays. -/
def restore (turtle : Turtle) : Turtle :=
  match turtle.saved with
  | [] => turtle
  | pose :: saved => { turtle with pose, saved }

/-- What the turtle does for each symbol. -/
def actions : Actions Float Turtle :=
  .ofList
    [(⟨"F"⟩, forward), (⟨"+"⟩, fun _ => turn 90.0), (⟨"-"⟩, fun _ => turn (-90.0)),
      (.opening, fun _ => save), (.closing, fun _ => restore)]

end Turtle
end LSystem
