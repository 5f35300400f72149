import Flipbook.Decimal.Numeral
import Flipbook.Document.Reading
import Flipbook.Document.Substitution
import Flipbook.Text.Split

/-!
# Frame lists

A frame list is written as one part or as several in brackets, between commas:

* `5` is a frame, and what is no frame number counts for nothing;
* `0-15` is a range, both ends included; a bound that is no frame number counts
  as zero, and a range that ends before it starts is empty;
* `0-20:2` takes every second frame of a range, by position; a step that is zero
  or no number counts as one.

The frames come in ascending order and each only once.
-/
namespace Flipbook.Document

/-- Every frame from the first to the last. -/
def framesBetween (first last : Nat) : List Nat := List.range' first (last + 1 - first)

/-- Takes the first element and then every one that is `step` places further on. -/
def everyNth {α : Type} (step : Nat) : List α → List α
  | [] => []
  | a :: as => a :: everyNth step (as.drop (step - 1))
termination_by as => as.length
decreasing_by simp only [List.length_cons, List.length_drop]; omega

/-- The bound of a range. -/
def rangeBound (cs : List Char) : Nat := (Decimal.frame? (Text.trim cs)).getD 0

/-- The step behind a colon. -/
def stepWidth (cs : List Char) : Nat :=
  ((Decimal.natural? Decimal.wordBound (Text.trim cs)).filter (0 < ·)).getD 1

/-- The frames of a part without a step, unless they are more than `limit`. -/
def plainFrames? (limit : Nat) (part : List Char) : Option (List Nat) :=
  match Text.cut '-' part with
  | some (left, right) =>
    let first := rangeBound left
    let last := rangeBound right
    if last < first then some []
    else if limit ≤ last - first then none
    else some (framesBetween first last)
  | none => some (Decimal.frame? (Text.trim part)).toList

/-- The frames of a part, unless its range holds more than `limit`. -/
def partFrames? (limit : Nat) (part : List Char) : Option (List Nat) :=
  match Text.cut ':' part with
  | some (range, step) => (plainFrames? limit range).map (everyNth (stepWidth step))
  | none => plainFrames? limit part

/-- The text between brackets at the very ends. -/
def bracketed? (cs : List Char) : Option (List Char) :=
  match cs with
  | '[' :: inner => if inner.getLast? = some ']' then some inner.dropLast else none
  | _ => none

/-- The frames of a list in the order in which they are written, unless they are
more than `limit`. -/
def listFrames? (limit : Nat) (spec : List Char) : Option (List Nat) :=
  match bracketed? spec with
  | some inner =>
    (((Text.splitOn ',' inner).mapM fun part => partFrames? limit (Text.trim part)).map
      List.flatten).filter (·.length ≤ limit)
  | none => partFrames? limit spec

/-- The frames of a list whose tokens are replaced first. -/
def resolveFrames (substitutions : Substitutions) (limit : Nat) (spec : List Char) :
    Reading (List Nat) := do
  let expanded := Text.trim (← Reading.ofNoted (substitutions.expand spec))
  match listFrames? limit expanded with
  | some frames => return frames.mergeSort.eraseReps
  | none => throw (.tooManyFrames (String.ofList expanded) limit)

end Flipbook.Document
