import Flipbook.Json.Shape

/-!
# Values of any shape

`Value` is any JSON value, and `value` reads one whose nesting is bounded.
-/
namespace Flipbook.Json

/-- A JSON value. -/
inductive Value where
  | null
  | bool (value : Bool)
  | number (value : Numeral)
  | text (value : String)
  | array (elements : List Value)
  | object (members : List (String × Value))

/-- Reads a value, with readers for what stands behind an opening bracket and
behind an opening brace. -/
def valueWith (elements members : Reader Value) : Reader Value := do
  match ← Reader.next with
  | none => Reader.fail .truncated
  | some c =>
    if c = 'n' then do
      Reader.word "null".toList
      return .null
    else if c = 't' || c = 'f' then .bool <$> boolean
    else if startsNumber c then .number <$> number
    else if c = '\x22' then .text <$> string
    else if c = '[' then do
      Reader.advance
      elements
    else if c = '\x7b' then do
      Reader.advance
      members
    else Reader.fail .malformed

/-- Reads a value of at most `depth` levels of arrays and objects. -/
def value : Nat → Reader Value
  | 0 => valueWith (Reader.fail .malformed) (Reader.fail .malformed)
  | depth + 1 =>
    let member : MemberReader String (List (String × Value)) := fun key earlier =>
      .ok ((fun v => earlier ++ [(key, v)]) <$> value depth)
    valueWith (.array <$> arrayRest (value depth)) (.object <$> objectRest quotedRest member [])

namespace Value

/-- The natural number less than `bound` that a value is. -/
def natural? (bound : Nat) : Value → Option Nat
  | .number n => (n.integer?.filter fun i : Int => 0 ≤ i && i < bound).map Int.toNat
  | _ => none

/-- The truth value that a value is. -/
def boolean? : Value → Option Bool
  | .bool b => some b
  | _ => none

end Value
end Flipbook.Json
