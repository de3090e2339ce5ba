namespace LSystem

/-!
# A keystream of words

ChaCha with twelve rounds turns a key into an endless sequence of words.  Each
block of sixteen words is computed from the key and the number of the block, so
every word can be had without those before it.
-/

namespace ChaCha

/-- The working state, and also one block of the keystream. -/
abbrev Block := Vector UInt32 16

/-- Turns the bits of a word to the left in a circle. -/
def rotateLeft (word count : UInt32) : UInt32 :=
  (word <<< count) ||| (word >>> (32 - count))

/-- Adds one word to another and turns the exclusive or of the sum with a third. -/
def mix (target added mixed : Fin 16) (count : UInt32) (block : Block) : Block :=
  let block := block.set target (block[target] + block[added])
  block.set mixed (rotateLeft (block[mixed] ^^^ block[target]) count)

/-- Four words are mixed into each other, each of them twice. -/
def quarterRound (a b c d : Fin 16) (block : Block) : Block :=
  mix c d b 7 (mix a b d 8 (mix c d b 12 (mix a b d 16 block)))

/-- One round on the columns of the square of words and one on its diagonals. -/
def doubleRound (block : Block) : Block :=
  let columns :=
    quarterRound 3 7 11 15 (quarterRound 2 6 10 14
      (quarterRound 1 5 9 13 (quarterRound 0 4 8 12 block)))
  quarterRound 3 4 9 14 (quarterRound 2 7 8 13
    (quarterRound 1 6 11 12 (quarterRound 0 5 10 15 columns)))

/-- The words that fill the first row of every state. -/
def constants : Vector UInt32 4 := #v[0x61707865, 0x3320646e, 0x79622d32, 0x6b206574]

/-- The state before the rounds: constants, key, and the number of the block with
its low word first.  The last two words stay zero. -/
def initial (key : Vector UInt32 8) (number : UInt64) : Block :=
  constants ++ key ++ #v[number.toUInt32, (number >>> 32).toUInt32, 0, 0]

/-- Six double rounds, and the sum with the state before them. -/
def block (key : Vector UInt32 8) (number : UInt64) : Block :=
  let before := initial key number
  before.zipWith (· + ·) (Nat.repeat doubleRound 6 before)

end ChaCha
end LSystem
