import Flipbook.Decimal.Numeral
import Flipbook.Json.Reader

/-!
# JSON numbers

A number is written with an optional minus sign, digits without a leading zero,
an optional fraction and an optional exponent. `numeral` reads its parts and
`number` a number as a value, which has to be finite. Its size is that of its
leading digits, as many as make a word, times a power of ten in floating point.
-/
namespace Flipbook.Json

/-- The parts of a number as it is written. -/
structure Numeral where
  negative : Bool
  whole : List Char
  fraction : Option (List Char)
  exponent : Option Int
deriving DecidableEq, Repr

/-- Continues a value by digits as long as it stays below a bound. The digits that
do not fit are left. -/
def leadingDigits (bound value : Nat) : List Char → Nat × List Char
  | [] => (value, [])
  | d :: ds =>
    let longer := Decimal.digitsValue value [d]
    if longer < bound then leadingDigits bound longer ds else (value, d :: ds)

namespace Numeral

/-- The digits of the fraction. -/
def fractionDigits (n : Numeral) : List Char := n.fraction.getD []

/-- The value of the leading digits of the whole part, and its digits behind them. -/
def leadingWhole (n : Numeral) : Nat × List Char := leadingDigits Decimal.wordBound 0 n.whole

/-- The value of the leading digits, and the digits of the fraction behind them. -/
def leading (n : Numeral) : Nat × List Char :=
  leadingDigits Decimal.wordBound n.leadingWhole.1 n.fractionDigits

/-- The power of ten by which the value of the leading digits is scaled. -/
def scale (n : Numeral) : Int :=
  n.exponent.getD 0 + n.leadingWhole.2.length - (n.fractionDigits.length - n.leading.2.length)

/-- The greatest power of ten that is finite in floating point. -/
def maxScale : Nat := 308

/-- Whether the number is finite in floating point. -/
def isFinite (n : Numeral) : Bool :=
  n.leading.1 = 0 || n.scale ≤ 0 || n.scale ≤ maxScale &&
    !(Float.ofNat n.leading.1 * Float.ofScientific 1 false n.scale.toNat).isInf

/-- The whole number, if it is written as one. Minus zero is none. -/
def integer? (n : Numeral) : Option Int :=
  let value := Decimal.digitsValue 0 n.whole
  if n.fraction.isSome || n.exponent.isSome then none
  else if n.negative then if value = 0 then none else some (-(value : Int))
  else some value

end Numeral

/-- Reads one digit at least. `atEnd` is the fault of a text that ends before. -/
def digits (atEnd : Fault) : Reader (List Char) := do
  match ← Reader.peek with
  | none => Reader.fail atEnd
  | some c =>
    if c.isDigit then Reader.takeWhile Char.isDigit else Reader.fail .malformed

/-- Reads the digits of an exponent with their sign. -/
def signedDigits (atEnd : Fault) : Reader Int := do
  match ← Reader.peek with
  | some '-' => do
    Reader.advance
    return -(Decimal.digitsValue 0 (← digits atEnd) : Int)
  | some '+' => do
    Reader.advance
    return (Decimal.digitsValue 0 (← digits atEnd) : Int)
  | _ => return (Decimal.digitsValue 0 (← digits atEnd) : Int)

/-- Reads the parts of a number. `atEnd` is the fault of a text that ends where a
digit is needed. -/
def numeral (atEnd : Fault) : Reader Numeral := do
  let negative := (← Reader.peek) == some '-'
  if negative then Reader.advance
  let whole ← digits atEnd
  if whole.head? = some '0' && 1 < whole.length then Reader.fail .malformed
  let fraction ← if (← Reader.peek) == some '.' then do
      Reader.advance
      some <$> digits atEnd
    else pure none
  let mark ← Reader.peek
  let exponent ← if mark == some 'e' || mark == some 'E' then do
      Reader.advance
      some <$> signedDigits atEnd
    else pure none
  return ⟨negative, whole, fraction, exponent⟩

/-- Reads a number. -/
def number : Reader Numeral := do
  let n ← numeral .truncated
  if n.isFinite then return n else Reader.fail .malformed

/-- Skips a number, however large. -/
def skipNumber : Reader Unit := do
  let _ ← numeral .malformed

end Flipbook.Json
