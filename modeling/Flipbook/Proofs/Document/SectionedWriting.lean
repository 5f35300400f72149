import Flipbook.Document.Sectioned
import Flipbook.Proofs.Document.Writing

/-!
# Writing sectioned documents

How an animation is written as a sectioned document: a section for the animation,
then one for each segment, with every property spelled out on a line of its own.

    [animation]
    frametime: 2
    interpolate: true
    [segment:walk]
    type: sequence
    frames: [1, 4]
    loop: true
    pause_on_last: false
    priority: 10
    when: is_daytime

* `Segment.section`: the section of a segment.
* `Metadata.sectionedText`: a whole document.
* `Metadata.SectionedWritable`: the animations that can be written so. Names and
  conditions must keep to their lines.
-/
namespace Flipbook

open Decimal (naturalText integerText booleanText)

namespace Document

/-! ## Sections -/

/-- A property on its line. -/
def propertyLine (entry : String × List Char) : List Char :=
  entry.1.toList ++ ':' :: ' ' :: entry.2

/-- A section as it is written: its header and its properties. -/
structure WrittenSection where
  header : List Char
  entries : List (String × List Char)

/-- The lines of a section. -/
def WrittenSection.lines (part : WrittenSection) : List (List Char) :=
  part.header :: part.entries.map propertyLine

/-- The frames of a range as a list of its ends. -/
def rangeText (range : FrameRange) : List Char :=
  '[' :: (naturalText range.first ++ ',' :: ' ' :: (naturalText range.last ++ [']']))

/-- Lines as a text. -/
def linesText (lines : List (List Char)) : List Char := lines.flatMap (· ++ ['\n'])

end Document

open Document (WrittenSection linesText rangeText)

/-! ## Segments -/

/-- The header of the section of a segment. There is a section for fallbacks that needs
no name. -/
def Segment.sectionHeader (s : Segment) : List Char :=
  if s.isFallback then "[fallback]".toList
  else '[' :: ("segment:".toList ++ s.name.toList ++ [']'])

/-- The properties of a kind. -/
def SegmentKind.sectionedEntries : SegmentKind → List (String × List Char)
  | .fallback frame => [("frame", naturalText frame)]
  | .singleFrame frame _ => [("type", "single".toList), ("frame", naturalText frame)]
  | .sequence range looping pauses _ =>
    [("type", "sequence".toList), ("frames", rangeText range), ("loop", booleanText looping),
      ("pause_on_last", booleanText pauses)]
  | .oneShot range _ => [("type", "oneshot".toList), ("frames", rangeText range)]

/-- The property that holds the condition of a trigger. -/
def Trigger.whenEntry (t : Trigger) : Option (String × List Char) :=
  t.condition.map fun condition => ("when", condition.source.toList)

/-- The properties of a segment. Its frame time and its condition stand there if it has
them. -/
def Segment.sectionedEntries (s : Segment) : List (String × List Char) :=
  s.kind.sectionedEntries ++ ("priority", integerText s.priority) ::
    ((s.frametime.map fun ticks => ("frametime", naturalText ticks)).toList ++
      (s.kind.trigger?.bind Trigger.whenEntry).toList)

/-- The section of a segment. -/
def Segment.section (s : Segment) : WrittenSection := ⟨s.sectionHeader, s.sectionedEntries⟩

/-! ## Animations -/

namespace Metadata

/-- The header of the section of a whole animation. -/
def animationHeader : List Char := "[animation]".toList

/-- The properties of a whole animation. -/
def animationEntries (m : Metadata) : List (String × List Char) :=
  ("frametime", naturalText m.header.frametime) ::
    ("interpolate", booleanText m.header.interpolate) ::
      (m.header.maxFps.map fun rate => ("max_fps", naturalText rate)).toList

/-- The section of a whole animation. -/
def animationSection (m : Metadata) : WrittenSection := ⟨animationHeader, m.animationEntries⟩

/-- An animation as a sectioned document. -/
def sectionedText (m : Metadata) : List Char :=
  linesText ((m.animationSection :: m.segments.map Segment.section).flatMap WrittenSection.lines)

end Metadata

/-! ## What can be written -/

namespace Document

/-- Whether a text can stand on a line: nothing is dropped from its ends, and it neither
breaks the line nor starts a comment. -/
structure OnLine (text : List Char) : Prop where
  trimmed : Text.trim text = text
  line : '\n' ∉ text
  comment : '#' ∉ text

/-- Whether a text can be the name in a header. -/
structure Nameable (text : List Char) : Prop extends OnLine text where
  last : text.getLast? ≠ some ']'

/-- Whether a text can be the value of a property that names no substitution. -/
structure Statable (text : List Char) : Prop extends OnLine text where
  nonempty : text ≠ []
  token : '$' ∉ text

end Document

open Document (Config Nameable Statable)

/-- The triggers that a property can stand for: none, or a condition as it is read with
some random numbers. -/
inductive Trigger.SectionedWritable (random : Expression.Random) : Trigger → Prop
  | none : SectionedWritable random .none
  | condition {source : String} (h : Statable source.toList) :
    SectionedWritable random (.ofCondition (Expression.Condition.read source random).value)

/-- Whether a segment can be written as a section. -/
structure Segment.SectionedWritable (s : Segment) (random : Expression.Random) : Prop where
  wellFormed : s.WellFormed
  inRange : s.InRange
  name : Nameable s.name.toList
  fallback : s.isFallback = true → s.name = "fallback"
  trigger : ∀ t, s.kind.trigger? = some t → t.SectionedWritable random

/-- Whether an animation can be written as a sectioned document, given the random numbers
that its reader has for each segment. -/
structure Metadata.SectionedWritable (m : Metadata) (config : Config) : Prop where
  wellFormed : m.WellFormed m.header.texture .sectioned
  inRange : m.header.InRange
  width : m.header.width = none
  height : m.header.height = none
  segment : ∀ entry ∈ m.segments.zipIdx, entry.1.SectionedWritable (config.random entry.2)

end Flipbook
