import LSystem.Random.ChaCha
import LSystem.Random.Chance

namespace LSystem

/-!
# Seeded chance

A seed of one machine word is stretched to a key, and the keystream of the key
gives the draws.  A draw is made of two words and is a multiple of `2 ^ -53`
from zero up to, but not including, one.
-/

namespace Seeded

/-- One step of the linear congruence that stretches a seed. -/
def advance (state : UInt64) : UInt64 := state * 6364136223846793005 + 11634580027462260723

/-- Turns the bits of a word to the right in a circle. -/
def rotateRight (word count : UInt32) : UInt32 :=
  (word >>> count) ||| (word <<< (32 - count))

/-- The word that a state of the congruence gives out. -/
def scramble (state : UInt64) : UInt32 :=
  rotateRight (((state >>> 18) ^^^ state) >>> 27).toUInt32 (state >>> 59).toUInt32

/-- The key of a seed: the words of the first eight steps of the congruence. -/
def key (seed : UInt64) : Vector UInt32 8 :=
  Vector.ofFn fun index => scramble (Nat.repeat advance (index + 1) seed)

/-- The number made of the upper 53 bits of two words, scaled down to below one. -/
def unit (low high : UInt32) : Float :=
  ((low.toUInt64 ||| (high.toUInt64 <<< 32)) >>> 11).toFloat / 9007199254740992.0

/-- The draw with a given index.  A block of the keystream holds eight draws. -/
def draw (key : Vector UInt32 8) (index : Nat) : Float :=
  let block := ChaCha.block key (.ofNat (index / 8))
  have inBlock : 2 * (index % 8) + 1 < 16 := by omega
  unit block[2 * (index % 8)] block[2 * (index % 8) + 1]

end Seeded

/-- The source of chance of a seed. -/
def Chance.seeded (seed : UInt64) : Chance :=
  let key := Seeded.key seed
  .ofDraws (Seeded.draw key)

end LSystem
