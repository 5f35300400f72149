import Flipbook.Format
import Flipbook.Json.Fault
import Flipbook.Texture

/-!
# Errors of documents

`Error` lists the reasons why a description, or one segment of it, is refused.
-/
namespace Flipbook.Document

/-- What a block document lacks. -/
inductive Problem where
  | unterminatedBrace
  | unterminatedParen
  | noSegmentList
  | noArgument
  | noProperties
deriving DecidableEq, Repr

/-- The words for a problem. -/
def Problem.text : Problem → String
  | .unterminatedBrace => "unterminated `\x7b`"
  | .unterminatedParen => "unterminated `(`"
  | .noSegmentList => "expected `\x7b` after `segments`"
  | .noArgument => "expected `(` after corrector name"
  | .noProperties => "expected `\x7b` to open segment properties"

/-- Why a description or a segment is refused. -/
inductive Error where
  /-- No segment is left. -/
  | noSegments (texture : Texture)
  /-- There is more than one fallback. -/
  | multipleFallbacks (texture : Texture) (count : Nat)
  /-- A segment kind that the format does not know. -/
  | unknownKind (kind : String)
  /-- A frame range that ends before it starts. -/
  | invertedRange (segment : String) (first last : Nat)
  /-- A frame list with more frames than allowed. -/
  | tooManyFrames (spec : String) (limit : Nat)
  /-- A block document that is not built as it should be, at the given byte. -/
  | illFormed (position : Nat) (problem : Problem)
  /-- A segment list that closes after the braces around it. -/
  | listOverrun
  /-- Game metadata that describes no animation. -/
  | notAnimated
  /-- Game metadata that is no JSON text of the right shape. -/
  | json (fault : Json.Fault)
deriving DecidableEq, Repr

/-- The message of an error. -/
def Error.message : Error → String
  | .noSegments texture => s!"No segments found for {texture.name}"
  | .multipleFallbacks texture count => s!"Multiple fallbacks ({count}) in {texture.name}"
  | .unknownKind kind => s!"Unknown segment type: {kind}"
  | .invertedRange segment first last =>
    s!"Inverted frame range in segment `{segment}`: {first} > {last}"
  | .tooManyFrames spec limit => s!"Frame spec `{spec}` expands past {limit} frames"
  | .illFormed position problem =>
    s!"Invalid {Format.block.label} syntax at byte {position}: {problem.text}"
  | .listOverrun => "Segment list closes after its enclosing braces"
  | .notAnimated => "Not an animated texture: missing `animation` object"
  | .json fault => fault.label

end Flipbook.Document
