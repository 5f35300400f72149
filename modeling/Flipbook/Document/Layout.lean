import Flipbook.Document.Balanced
import Flipbook.Document.Error
import Flipbook.Document.Recognition

/-!
# The layout of block documents

A block document is a list of segment declarations. The list may stand in braces
of its own behind the word `segments`, among the properties of the animation, and
those again in braces:

    "animation" {
        frametime = 2;
        segments: {
            segment!FALLBACK_FRAME { frame_index = 0; }
        }
    }

`Layout.of` finds the list and the properties around it. Positions count bytes
from the start of the document.
-/
namespace Flipbook.Document

/-- The position of `rest`, which ends a document, in it. -/
def positionOf (document rest : List Char) : Nat := Text.byteSize document - Text.byteSize rest

/-- The word before a segment list in braces. -/
def listKeyword : List Char := "segments".toList

/-- Where the parts of a block document are. -/
structure Layout where
  /-- The properties of the animation. -/
  header : List Char
  /-- The position of the segment list. -/
  start : Nat
  /-- The segment list. -/
  list : List Char
deriving DecidableEq, Repr

namespace Layout

/-- The text between braces, from behind the opening one at `position`, and what
follows. -/
def braces (position : Nat) (text : List Char) : Except Error (List Char × List Char) :=
  match balanced '\x7b' '\x7d' text with
  | some found => .ok found
  | none => .error (.illFormed position .unterminatedBrace)

/-- Whatever follows the keyword of the segment list, from the list's opening
brace on. -/
def listBrace (text : List Char) : List Char :=
  match Text.trimStart text with
  | ':' :: rest => Text.trimStart rest
  | rest => rest

/-- The layout of a document whose animation has braces around it. `after` is
what follows the opening brace, `inner` stands between the braces, of which
`left` is what stands before the keyword. -/
def ofKeyword (document after inner left : List Char) : Except Error Layout :=
  let rest := listBrace (after.drop (left.length + listKeyword.length))
  match rest with
  | '\x7b' :: body => do
    let (list, tail) ← braces (positionOf document rest) body
    let closed := after.length - tail.length
    if inner.length < closed then .error .listOverrun
    else .ok ⟨left ++ ';' :: inner.drop closed, positionOf document body, list⟩
  | _ => .error (.illFormed (positionOf document rest) .noSegmentList)

/-- The layout of a document. Braces and keywords behind the first segment
declaration belong to segments. -/
def of (document : List Char) : Except Error Layout :=
  let before := match Text.breakOn segmentMarker document with
    | some (before, _) => before
    | none => document
  match findOutside '\x7b' .outside document with
  | some (outer, after) =>
    if outer.length < before.length then do
      let (inner, _) ← braces (Text.byteSize outer) after
      match Text.breakOn listKeyword inner with
      | some (left, _) =>
        if outer.length + 1 + left.length < before.length then ofKeyword document after inner left
        else .ok ⟨[], positionOf document after, inner⟩
      | none => .ok ⟨[], positionOf document after, inner⟩
    else .ok ⟨[], 0, document⟩
  | none => .ok ⟨[], 0, document⟩

end Layout
end Flipbook.Document
