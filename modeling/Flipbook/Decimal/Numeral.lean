/-!
# Reading numerals

Properties, frame numbers and options are written as plain decimal numerals: an
optional sign and at least one digit, and nothing else. A numeral outside the
range of its field is no numeral for it.

* `natural?` reads an unsigned numeral below a bound, with an optional plus.
* `integer?` reads a signed numeral between two bounds.
* `real?` reads a floating-point number, with an optional fraction, an optional
  exponent and the words for infinity and not-a-number.
* `boolean?` reads the words `true` and `false`.
-/
namespace Flipbook.Decimal

/-- The value of a run of digits, continued from `start`. -/
def digitsValue (start : Nat) (ds : List Char) : Nat :=
  ds.foldl (fun value d => 10 * value + (d.toNat - '0'.toNat)) start

/-- The value of a non-empty run of ASCII digits. -/
def digits? (cs : List Char) : Option Nat :=
  if !cs.isEmpty && cs.all Char.isDigit then some (digitsValue 0 cs) else none

/-- Frame numbers, frame times, tick counts and frame rates lie below this
bound. -/
def frameBound : Nat := 4294967296

/-- Step widths and tick numbers lie below this bound. -/
def wordBound : Nat := 18446744073709551616

/-- Reads an unsigned numeral below `bound`. -/
def natural? (bound : Nat) (cs : List Char) : Option Nat :=
  let ds := match cs with
    | '+' :: ds => ds
    | ds => ds
  (digits? ds).filter (· < bound)

/-- Reads a frame number or another unsigned field. -/
def frame? (cs : List Char) : Option Nat := natural? frameBound cs

/-- Priorities and food levels are at least minus this bound and lie below it. -/
def signedBound : Int := 2147483648

/-- Reads a signed numeral between the bounds. -/
def integer? (cs : List Char) : Option Int :=
  let value := match cs with
    | '-' :: ds => (digits? ds).map fun n => -(n : Int)
    | '+' :: ds => (digits? ds).map Int.ofNat
    | ds => (digits? ds).map Int.ofNat
  value.filter fun n => -signedBound ≤ n && n < signedBound

/-- Reads the words `true` and `false`. -/
def boolean? (cs : List Char) : Option Bool :=
  if cs = "true".toList then some true
  else if cs = "false".toList then some false
  else none

/-! ## Floating-point numbers -/

/-- The number `digits * 10 ^ exponent`, rounded to nearest. Exponents far out of
range are settled before any power of ten is formed. -/
def scaled (digits : Nat) (exponent : Int) : Float :=
  if digits = 0 then 0
  else if exponent + digits.log2 < -400 then 0
  else if 400 < exponent then 1 / 0
  else Float.ofScientific digits (decide (exponent < 0)) exponent.natAbs

/-- Reads an optional exponent part to its end. -/
def exponent? : List Char → Option Int
  | [] => some 0
  | c :: cs =>
    if c = 'e' || c = 'E' then
      match cs with
      | '-' :: ds => (digits? ds).map fun n => -(n : Int)
      | '+' :: ds => (digits? ds).map Int.ofNat
      | ds => (digits? ds).map Int.ofNat
    else none

/-- Reads the magnitude of a number: digits with an optional point among them
and an optional exponent. -/
def magnitude? (cs : List Char) : Option Float :=
  let whole := cs.takeWhile Char.isDigit
  let rest := cs.dropWhile Char.isDigit
  let (fraction, rest) := match rest with
    | '.' :: rest => (rest.takeWhile Char.isDigit, rest.dropWhile Char.isDigit)
    | rest => ([], rest)
  if whole.isEmpty && fraction.isEmpty then none
  else
    (exponent? rest).map fun e =>
      scaled (digitsValue 0 (whole ++ fraction)) (e - fraction.length)

/-- Reads a floating-point number. The words for infinity and not-a-number may
be written in capitals. -/
def real? (cs : List Char) : Option Float :=
  let (negative, cs) := match cs with
    | '-' :: cs => (true, cs)
    | '+' :: cs => (false, cs)
    | cs => (false, cs)
  let word := cs.map Char.toLower
  let value :=
    if word = "inf".toList || word = "infinity".toList then some (1 / 0)
    else if word = "nan".toList then some (0 / 0)
    else magnitude? cs
  value.map fun x => if negative then -x else x

end Flipbook.Decimal
