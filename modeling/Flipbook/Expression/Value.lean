import Flipbook.Decimal.Shortest
import Flipbook.Game.Basic
import Flipbook.Table

/-!
# Values and variables

Conditions work with numbers, truth values and texts. Each value can be read as
a truth value and as a number; the readings never fail. A `Scope` holds the
variables of one evaluation.
-/
namespace Flipbook.Expression

/-- A value. -/
inductive Value where
  | number (value : Float)
  | bool (value : Bool)
  | text (value : String)

namespace Value

/-- The value as a truth value: numbers hold when they are neither zero nor
not-a-number, texts never do. -/
def truthy : Value → Bool
  | .number n => n != 0 && !n.isNaN
  | .bool b => b
  | .text _ => false

/-- The value as a number: texts count as zero. -/
def asNumber : Value → Float
  | .number n => n
  | .bool true => 1
  | .bool false => 0
  | .text _ => 0

/-- The value in words. -/
def display : Value → String
  | .number n => Decimal.text n
  | .bool b => if b then "true" else "false"
  | .text s => s

/-- A whole number as a value. -/
def ofInt (n : Int) : Value := .number (Float.ofInt n)

/-- A frame number or a count as a value. -/
def ofNat (n : Nat) : Value := .number (Float.ofNat n)

end Value

/-- The variables of one evaluation, and the frame and the completed cycles of
the segment that it is for. -/
structure Scope where
  values : Table String Value
  frame : Nat
  cycles : Nat

namespace Scope

/-- The scope without variables. -/
def empty : Scope := ⟨∅, 0, 0⟩

instance : Inhabited Scope := ⟨empty⟩

/-- Gives a variable its value. -/
def set (s : Scope) (name : String) (value : Value) : Scope :=
  { s with values := s.values.insert name value }

/-- The value of a variable. -/
def get? (s : Scope) (name : String) : Option Value := s.values.get? name

/-- The scope with the numbers of a player. -/
def ofPlayer (p : Player) : Scope :=
  ((empty.set "health" (.number p.health)).set "max_health" (.number p.maxHealth)).set "hunger"
    (.ofInt p.hunger)

/-- The scope for a segment. -/
def forSegment (s : Scope) (frame cycles : Nat) : Scope := { s with frame, cycles }

end Scope
end Flipbook.Expression
