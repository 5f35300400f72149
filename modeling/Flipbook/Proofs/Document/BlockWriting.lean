import Flipbook.Proofs.Document.Balance
import Flipbook.Proofs.Document.Writing

/-!
# Writing block documents

How an animation is written as a block document, with one declaration a line and
every property spelled out:

    "animation" { frametime = 2; interpolate = true; segments {
    segment!SEQUENCE @event("rain") { name = "drops"; … }
    } }

* `Declaration.text`: a declaration as it is written.
* `Segment.declaration`: the declaration of a segment.
* `Metadata.blockText`: a whole document.
* `Metadata.BlockWritable`: the animations that can be written so. Names must keep
  to their quotes and conditions to their parentheses.
-/
namespace Flipbook

open Decimal (naturalText integerText booleanText)

namespace Document

/-! ## Declarations -/

/-- A text in quotes. -/
def inQuotes (text : List Char) : List Char := '\x22' :: (text ++ ['\x22'])

/-- What stands before the value of a property. -/
def entryHead (entry : String × List Char) : List Char :=
  ' ' :: (entry.1.toList ++ [' ', '=', ' '])

/-- A property as it is written, with a blank before it. -/
def entryText (entry : String × List Char) : List Char :=
  entryHead entry ++ (entry.2 ++ [';'])

/-- Some properties as they are written. -/
def entriesText (entries : List (String × List Char)) : List Char := entries.flatMap entryText

/-- The name of a kind in capitals. -/
def BlockKind.capitals : BlockKind → List Char
  | .fallback => "FALLBACK_FRAME".toList
  | .singleFrame => "SINGLE_FRAME".toList
  | .sequence => "SEQUENCE".toList
  | .oneShot => "ONESHOT".toList

/-- A corrector as it is written, with a blank before it. -/
def Corrector.text (c : Corrector) : List Char :=
  ' ' :: '@' :: (c.name ++ '(' :: (c.argument ++ [')']))

/-- What is written of a declaration behind its marker. -/
def Declaration.body (d : Declaration) : List Char :=
  d.kind.capitals ++
    (d.corrector.elim [] Corrector.text ++ ' ' :: '\x7b' :: (d.properties ++ ['\x7d']))

/-- A declaration as it is written. -/
def Declaration.text (d : Declaration) : List Char := segmentMarker ++ d.body

end Document

open Document (BlockKind Corrector Declaration entriesText inQuotes listKeyword)

/-! ## Segments -/

/-- How the kind of a segment is called in a declaration. -/
def SegmentKind.blockKind : SegmentKind → BlockKind
  | .fallback .. => .fallback
  | .singleFrame .. => .singleFrame
  | .sequence .. => .sequence
  | .oneShot .. => .oneShot

/-- The properties of a kind. -/
def SegmentKind.blockEntries : SegmentKind → List (String × List Char)
  | .fallback frame => [("frame_index", naturalText frame)]
  | .singleFrame frame _ => [("frame_index", naturalText frame)]
  | .sequence range looping pauses _ =>
    [("first_frame_index", naturalText range.first), ("last_frame_index", naturalText range.last),
      ("loop", booleanText looping), ("pause_on_last_frame", booleanText pauses)]
  | .oneShot range _ =>
    [("first_frame_index", naturalText range.first), ("last_frame_index", naturalText range.last)]

/-- The corrector of a trigger. -/
def Trigger.corrector (t : Trigger) : Option Corrector :=
  match t.event, t.condition with
  | some name, _ => some ⟨"event".toList, inQuotes name.toList⟩
  | .none, some condition => some ⟨"expression".toList, condition.source.toList⟩
  | .none, .none => .none

/-- The properties of a segment. Its frame time stands there if it has one of its
own. -/
def Segment.blockEntries (s : Segment) : List (String × List Char) :=
  ("name", inQuotes s.name.toList) :: ("priority", integerText s.priority) ::
    (s.kind.blockEntries ++ (s.frametime.map fun ticks => ("frametime", naturalText ticks)).toList)

/-- The declaration of a segment. -/
def Segment.declaration (s : Segment) : Declaration where
  kind := s.kind.blockKind
  corrector := s.kind.trigger?.bind Trigger.corrector
  properties := entriesText s.blockEntries ++ [' ']

/-! ## Animations -/

namespace Metadata

/-- The properties of a whole animation. -/
def blockEntries (m : Metadata) : List (String × List Char) :=
  [("frametime", naturalText m.header.frametime),
    ("interpolate", booleanText m.header.interpolate)]

/-- The declarations of some segments, each on a line of its own. -/
def declarationLines (segments : List Segment) : List Char :=
  segments.flatMap fun s => '\n' :: s.declaration.text

/-- What stands before the braces of a document. -/
def blockTitle : List Char := "\x22animation\x22 ".toList

/-- An animation as a block document. -/
def blockText (m : Metadata) : List Char :=
  blockTitle ++ '\x7b' :: (entriesText m.blockEntries ++ ' ' ::
    (listKeyword ++ ' ' :: '\x7b' :: (declarationLines m.segments ++ ['\n', '\x7d', ' ', '\x7d'])))

end Metadata

/-! ## What can be written -/

namespace Document

/-- The characters that are dropped from the ends of quoted texts. -/
def margins : List Char := ['\x22', '\x27', ' ', '\t', '\n', '\r']

/-- Whether a text can stand in quotes. -/
structure Quotable (text : List Char) : Prop where
  quote : '\x22' ∉ text
  backslash : '\\' ∉ text
  first : ∀ c ∈ text.head?, c ∉ margins
  last : ∀ c ∈ text.getLast?, c ∉ margins

/-- Whether a text can stand in the parentheses of a corrector: nothing is dropped
from its ends, its strings are closed, and its delimiters are balanced outside them. -/
structure Embeddable (text : List Char) : Prop where
  trimmed : Text.trim text = text
  parentheses : Encloses '(' ')' .outside 0 text
  braces : Encloses '\x7b' '\x7d' .outside 0 text

end Document

open Document (Config Embeddable Quotable)

/-- The triggers that a corrector can stand for: none, an event, or a condition as it
is read with some random numbers. -/
inductive Trigger.BlockWritable (random : Expression.Random) : Trigger → Prop
  | none : BlockWritable random .none
  | event {name : String} (h : Quotable name.toList) : BlockWritable random (.ofEvent name)
  | condition {source : String} (h : Embeddable source.toList) :
    BlockWritable random (.ofCondition (Expression.Condition.read source random).value)

/-- Whether a segment can be declared. -/
structure Segment.BlockWritable (s : Segment) (random : Expression.Random) : Prop where
  wellFormed : s.WellFormed
  inRange : s.InRange
  name : Quotable s.name.toList
  trigger : ∀ t, s.kind.trigger? = some t → t.BlockWritable random

/-- Whether an animation can be written as a block document, given the random numbers
that its reader has for each segment. -/
structure Metadata.BlockWritable (m : Metadata) (config : Config) : Prop where
  wellFormed : m.WellFormed m.header.texture .block
  inRange : m.header.InRange
  maxFps : m.header.maxFps = none
  width : m.header.width = none
  height : m.header.height = none
  segment : ∀ entry ∈ m.segments.zipIdx, entry.1.BlockWritable (config.random entry.2)

end Flipbook
