import Flipbook.Text.Quoted
import Flipbook.Text.Split

/-!
# Section headers

A sectioned document is divided by headers in brackets. `Section.ofHeader` tells
what a header opens.
-/
namespace Flipbook.Document

/-- What a section describes. -/
inductive Section where
  | animation
  | variableTexts
  | conditionTexts
  | fallback
  | segment (name : String)
  | unknown (name : String)
deriving DecidableEq, Repr

namespace Section

/-- The section with the given name. -/
def ofName (name : List Char) : Section :=
  if name = "animation".toList then .animation
  else if name = "variables".toList then .variableTexts
  else if name = "conditions".toList then .conditionTexts
  else if name = "fallback".toList then .fallback
  else
    match "segment:".toList.isPrefixOf? name with
    | some rest => .segment (String.ofList (Text.trim rest))
    | none => .unknown (String.ofList name)

/-- The section that a header line opens. All brackets at either end belong to
the header. -/
def ofHeader (line : List Char) : Section :=
  ofName (Text.trim (Text.dropEndWhile (· == ']') (line.dropWhile (· == '['))))

/-- The name of a section in messages. -/
def label : Section → String
  | .animation => "Animation"
  | .variableTexts => "Variables"
  | .conditionTexts => "Conditions"
  | .fallback => "Fallback"
  | .segment name => "Segment(" ++ Text.quoted name ++ ")"
  | .unknown name => "Unknown(" ++ Text.quoted name ++ ")"

end Section
end Flipbook.Document
