import Flipbook.Expression.Error
import Flipbook.Table

/-!
# What a condition remembers

Between evaluations a condition remembers how it last saw each event whose
changes it watches, the random numbers that it has yet to draw, and what it has
reported, so that each problem is reported once.
-/
namespace Flipbook.Expression

/-- A problem that is reported once. -/
inductive Report where
  | variable (name : String)
  | function (name : String)
  | failure (error : RunError)
deriving DecidableEq, Repr

/-- A source of random numbers: the words that a generator gives from its seed on. Both
the generator and the seed are left open. -/
structure Random where
  words : Nat → UInt64

namespace Random

/-- The source that gives zeros. -/
def zeros : Random := ⟨fun _ => 0⟩

/-- What is left after the next word. -/
def next (r : Random) : Random := ⟨fun n => r.words (n + 1)⟩

/-- The number of the next word, at least zero and less than one. -/
def value (r : Random) : Float := (r.words 0 >>> 11).toFloat / 9007199254740992

end Random

/-- The memory of a condition. -/
structure Memory where
  /-- The last seen state of each watched event. -/
  lastSeen : Table String Bool
  random : Random
  /-- The reported problems, newest first. -/
  reported : List Report

namespace Memory

/-- The memory of a new condition. -/
def fresh (random : Random) : Memory := ⟨∅, random, []⟩

/-- Notes a problem as reported. -/
def report (m : Memory) (r : Report) : Memory := { m with reported := r :: m.reported }

/-- Notes how an event was seen. -/
def see (m : Memory) (event : String) (active : Bool) : Memory :=
  { m with lastSeen := m.lastSeen.insert event active }

/-- Whether an event was last seen active. -/
def sawActive (m : Memory) (event : String) : Bool := m.lastSeen.getD event false

end Memory
end Flipbook.Expression
