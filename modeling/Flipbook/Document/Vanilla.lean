import Flipbook.Animation.Metadata
import Flipbook.Decimal.Numeral
import Flipbook.Document.Reading
import Flipbook.Json.Skip

/-!
# Game metadata

The game describes animations in JSON, of which only the `animation` object
counts here. It is one sequence that plays without end, with as many frames as
the list of frames has entries, whatever these are.
-/
namespace Flipbook.Document

open Json (Reader)

/-- The `animation` object. -/
structure VanillaAnimation where
  frametime : Option Nat
  interpolate : Bool
  /-- The number of entries in the list of frames. -/
  frames : Option Nat
  width : Option Nat
  height : Option Nat
deriving DecidableEq, Repr

namespace VanillaAnimation

/-- The fields that were met in an object so far. -/
structure Fields where
  frametime : Option (Option Nat)
  interpolate : Option Bool
  frames : Option (Option Nat)
  width : Option (Option Nat)
  height : Option (Option Nat)

/-- Reads a number for which `null` may stand. -/
def number : Reader (Option Nat) := Json.optional (Json.natural Decimal.frameBound)

/-- Reads a list of frames and counts its entries. -/
def frameCount : Reader (Option Nat) := Json.optional Json.countElements

/-- Reads a member of the object. -/
def member : Json.MemberReader String Fields := fun key f =>
  match key with
  | "frametime" => Json.fill f.frametime number fun v => { f with frametime := some v }
  | "interpolate" => Json.fill f.interpolate Json.boolean fun v => { f with interpolate := some v }
  | "frames" => Json.fill f.frames frameCount fun v => { f with frames := some v }
  | "width" => Json.fill f.width number fun v => { f with width := some v }
  | "height" => Json.fill f.height number fun v => { f with height := some v }
  | _ => .ok ((fun _ => f) <$> Json.skip)

/-- What the fields amount to. None of them is needed. -/
def ofFields (f : Fields) : VanillaAnimation :=
  ⟨f.frametime.getD none, f.interpolate.getD false, f.frames.getD none, f.width.getD none,
    f.height.getD none⟩

/-- Reads the object. -/
def reader : Reader VanillaAnimation :=
  Json.record member ⟨none, none, none, none, none⟩ (fun f => some (ofFields f)) do
    let frametime ← Json.firstField number
    let interpolate ← Json.nextField Json.boolean
    let frames ← Json.nextField frameCount
    let width ← Json.nextField number
    let height ← Json.nextField number
    return ⟨frametime, interpolate, frames, width, height⟩

/-- Reads the `animation` object of a document, if it has one. -/
def document : Reader (Option VanillaAnimation) :=
  let member : Json.MemberReader String (Option (Option VanillaAnimation)) := fun key found =>
    match key with
    | "animation" => Json.fill found (Json.optional reader) some
    | _ => .ok ((fun _ => found) <$> Json.skip)
  Json.record member none (fun found => some (found.getD none))
    (Json.firstField (Json.optional reader))

/-- The one segment. -/
def segment (a : VanillaAnimation) : Segment :=
  { Segment.ofKind "default"
      (.sequence ⟨0, a.frames.getD 0 - 1⟩ true false .none) with priority := 0 }

end VanillaAnimation

/-- Reads game metadata. -/
def readVanilla (texture : Texture) (content : List Char) : Reading Metadata :=
  match VanillaAnimation.document.run content with
  | .error fault => throw (.json fault)
  | .ok none => throw .notAnimated
  | .ok (some animation) => do
    let header ← Reading.ofNoted ((Header.plain texture .vanilla).withFrametime
      (animation.frametime.getD 1))
    let header := { header with
      interpolate := animation.interpolate, width := animation.width, height := animation.height }
    Reading.ofExcept (Metadata.validated ⟨header, [animation.segment]⟩)

end Flipbook.Document
