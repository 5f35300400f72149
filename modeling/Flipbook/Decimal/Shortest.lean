/-!
# The shortest decimal of a floating-point number

A number is written with the fewest significant digits that read back to it,
and of those with the digits nearest to it; of two equally near the upper one.
The digits are laid out positionally, without an exponent and without a point
when there is no fraction.

* `Binary.ofBits` reads the bits of a finite number as `m * 2 ^ q`.
* `Binary.readsBack` tells whether a decimal lies among the reals that round to
  the number.
* `Binary.shortest` searches the decimal grids from coarse to fine.
* `text` lays the digits out.
-/
namespace Flipbook.Decimal

/-- A power of two. -/
def twoTo (e : Nat) : Nat := Nat.pow 2 e

/-- A power of ten. -/
def tenTo (e : Nat) : Nat := Nat.pow 10 e

/-- A finite non-negative number `m * 2 ^ q`. -/
structure Binary where
  m : Nat
  q : Int
  /-- The next number below is only half as far away as the next one above. -/
  narrowBelow : Bool

/-- The magnitude of the finite number with the given bits. -/
def Binary.ofBits (bits : UInt64) : Binary :=
  let exponent := ((bits >>> 52) &&& 0x7FF).toNat
  let fraction := (bits &&& 0xFFFFFFFFFFFFF).toNat
  if exponent = 0 then ⟨fraction, -1074, false⟩
  else ⟨twoTo 52 + fraction, exponent - 1075, fraction == 0 && exponent > 1⟩

/-- The decimal `digits * 10 ^ exponent`. -/
structure Digits where
  digits : Nat
  exponent : Int
deriving DecidableEq, Repr

/-- Compares `a * 10 ^ i` with `b * 2 ^ j`. -/
def compareScaled (a : Nat) (i : Int) (b : Nat) (j : Int) : Ordering :=
  compare (a * tenTo i.toNat * twoTo (-j).toNat) (b * twoTo j.toNat * tenTo (-i).toNat)

/-- Whether a decimal lies among the reals that round to the number: from half
way to the number below to half way to the number above, the ends included
exactly when `m` is even. -/
def Binary.readsBack (x : Binary) (d : Digits) : Bool :=
  let low := if x.narrowBelow then 4 * x.m - 1 else 4 * x.m - 2
  let high := 4 * x.m + 2
  let closed := x.m % 2 == 0
  let atLow := compareScaled d.digits d.exponent low (x.q - 2)
  let atHigh := compareScaled d.digits d.exponent high (x.q - 2)
  (atLow == .gt || (closed && atLow == .eq)) && (atHigh == .lt || (closed && atHigh == .eq))

/-- The least `k` with `m * 2 ^ q < 10 ^ k`, for a positive number. -/
def Binary.scale (x : Binary) : Int :=
  let whole := x.m * twoTo x.q.toNat / twoTo (-x.q).toNat
  if whole = 0 then
    1 - ((List.range 330).find? fun j => twoTo (-x.q).toNat ≤ x.m * tenTo j).getD 330
  else (Nat.toDigits 10 whole).length

/-- The number divided by `10 ^ e`, rounded down. -/
def Binary.floorAt (x : Binary) (e : Int) : Nat :=
  x.m * twoTo x.q.toNat * tenTo (-e).toNat / (twoTo (-x.q).toNat * tenTo e.toNat)

/-- The neighbour of the number on the grid of multiples of `10 ^ e` that reads
back, the nearer one if both do, and the upper one if both are equally near. -/
def Binary.onGrid (x : Binary) (e : Int) : Option Digits :=
  let low : Digits := ⟨x.floorAt e, e⟩
  let high : Digits := ⟨x.floorAt e + 1, e⟩
  match x.readsBack low, x.readsBack high with
  | true, true =>
    if compareScaled (low.digits + high.digits) e (2 * x.m) x.q == .gt then some low else some high
  | true, false => some low
  | false, true => some high
  | false, false => none

/-- Moves the trailing zeros of the digits into the exponent, `bound` of them at
most. -/
def Digits.strip : Nat → Digits → Digits
  | 0, d => d
  | bound + 1, d =>
    if d.digits % 10 = 0 && d.digits != 0 then strip bound ⟨d.digits / 10, d.exponent + 1⟩ else d

/-- The shortest decimal of a positive number. Seventeen digits always suffice;
the exact value stands in for a grid beyond them. -/
def Binary.shortest (x : Binary) : Digits :=
  let grids := (List.range 17).map fun n : Nat => x.scale - (n + 1)
  let exact : Digits := ⟨x.m * twoTo x.q.toNat * Nat.pow 5 (-x.q).toNat, -(-x.q).toNat⟩
  ((grids.findSome? x.onGrid).getD exact).strip 20

/-! ## Layout -/

/-- The digits in positional form: zeros fill up to the point on either side. -/
def Digits.layout (d : Digits) : List Char :=
  let ds := Nat.toDigits 10 d.digits
  if 0 ≤ d.exponent then ds ++ List.replicate d.exponent.toNat '0'
  else
    let places := (-d.exponent).toNat
    if places < ds.length then
      ds.take (ds.length - places) ++ '.' :: ds.drop (ds.length - places)
    else '0' :: '.' :: List.replicate (places - ds.length) '0' ++ ds

/-- The text of a number. Zero keeps its sign. -/
def text (x : Float) : String :=
  if x.isNaN then "NaN"
  else
    let sign := if x.toBits >>> 63 == 1 then "-" else ""
    let magnitude := Binary.ofBits (x.toBits &&& 0x7FFFFFFFFFFFFFFF)
    if x.isInf then sign ++ "inf"
    else if magnitude.m = 0 then sign ++ "0"
    else sign ++ String.ofList magnitude.shortest.layout

end Flipbook.Decimal
