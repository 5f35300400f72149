import Flipbook.Document.Lines
import Flipbook.Format

/-!
# Recognising a format

The format of a document shows in its content. Game metadata opens with a brace.
Of the others, a document that opens with a section header is sectioned, and one
that declares a segment anywhere outside comments is a block document; whatever
is left is sectioned.
-/
namespace Flipbook.Document

/-- What declares a segment in a block document. -/
def segmentMarker : List Char := "segment!".toList

/-- The format of a document. -/
def formatOf (content : List Char) : Format :=
  if (Text.trimStart content).head? = some '\x7b' then .vanilla
  else
    let lines := (codeLines content).map Text.trimStart
    match lines with
    | ('[' :: _) :: _ => .sectioned
    | _ => if lines.any (Text.occursIn segmentMarker) then .block else .sectioned

end Flipbook.Document
