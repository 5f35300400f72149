import Flipbook.Animation.Metadata
import Flipbook.Decimal.Numeral
import Flipbook.Document.Config
import Flipbook.Document.Declaration
import Flipbook.Document.Layout
import Flipbook.Document.Reading

/-!
# Block documents

A block document declares segments one after the other. Properties are written
`key = value`, with a semicolon or a comma between them; of several with one key
the last counts. Keys and values may stand in quotes. A declaration that fails is
reported and skipped: the search for the next one goes on right behind its marker
(`readSegments`).
-/
namespace Flipbook.Document

open Text (Remainder)

/-! ## Properties -/

/-- Drops quotes and white space from both ends. -/
def unquote (text : List Char) : List Char :=
  Text.stripWhile (fun c => c ∈ ['\x22', '\x27', ' ', '\t', '\n', '\r']) text

/-- The properties in a text, with their values as they are written. -/
def blockProperties (text : List Char) : Table String (List Char) :=
  .ofList ((splitOutside (fun c => c = ';' || c = ',') .outside text).filterMap fun entry =>
    (Text.cut '=' entry).map fun (key, value) => (String.ofList (unquote key), Text.trim value))

/-- The value of a key, without quotes and as far as it can be read. -/
def blockValue {α : Type} (p : Table String (List Char)) (reader : List Char → Option α)
    (key : String) : Option α :=
  (p.get? key).bind fun value => reader (unquote value)

/-! ## Segments -/

/-- The range from `first` to `last`, or what the policy makes of one that ends
before it starts. -/
def Config.checkRange (config : Config) (segment : String) (first last : Nat) :
    Reading FrameRange :=
  if first ≤ last then return ⟨first, last⟩
  else if config.rejectInverted then throw (.invertedRange segment first last)
  else do
    Reading.note (.rangeCollapsed segment first last)
    return .single first

/-- The trigger that a corrector stands for. -/
def Corrector.trigger (segment : String) (random : Expression.Random) (c : Corrector) :
    Noted Trigger :=
  if c.name = "event".toList then return .ofEvent (String.ofList (unquote c.argument))
  else if c.name = "expression".toList then do
    return .ofCondition (← Expression.Condition.read (String.ofList (Text.trim c.argument)) random)
  else ⟨.none, [.correctorIgnored segment (String.ofList c.name)]⟩

/-- The segment of a declaration, which is the `index`-th one in its document. -/
def Declaration.segment (d : Declaration) (config : Config) (index : Nat) : Reading Segment := do
  let p := blockProperties d.properties
  let name := match p.get? "name" with
    | some name => String.ofList (unquote name)
    | none => s!"segment_{index}"
  let trigger ← Reading.ofNoted (match d.corrector with
    | some c => c.trigger name (config.random index)
    | none => pure .none)
  let frame := (blockValue p Decimal.frame? "frame_index").getD 0
  let first := (blockValue p Decimal.frame? "first_frame_index").getD 0
  let last := (blockValue p Decimal.frame? "last_frame_index").getD 0
  let frametime := blockValue p Decimal.frame? "frametime"
  let build (kind : SegmentKind) : Segment :=
    let plain := Segment.ofKind name kind
    { plain with
      frametime, priority := (blockValue p Decimal.integer? "priority").getD plain.priority }
  match d.kind with
  | .fallback => return { Segment.ofKind name (.fallback frame) with frametime }
  | .singleFrame => return build (.singleFrame frame trigger)
  | .sequence =>
    return build (.sequence (← config.checkRange name first last)
      ((blockValue p Decimal.boolean? "loop").getD true)
      ((blockValue p Decimal.boolean? "pause_on_last_frame").getD false) trigger)
  | .oneShot => return build (.oneShot (← config.checkRange name first last) trigger)

/-- What comes of a marker: a segment, unless it is skipped, and where the search
goes on. -/
structure SegmentStep (start : Nat) (text : List Char) where
  segment : Option Segment
  remainder : Remainder start text

theorem SegmentStep.length_rest_lt {start : Nat} {text whole : List Char}
    (s : SegmentStep start text) (h : text.length < whole.length) :
    s.remainder.rest.1.length < whole.length :=
  Nat.lt_of_le_of_lt s.remainder.rest.2 h

/-- The position behind a marker. -/
def behindMarker (position : Nat) : Nat := position + Text.byteSize segmentMarker

/-- Reads the segment behind a marker, or reports why it is skipped. -/
def readSegment (config : Config) (texture : Texture) (index position : Nat)
    (text : List Char) : Noted (SegmentStep (behindMarker position) text) :=
  let read : Reading (Segment × Remainder (behindMarker position) text) := do
    let (found, remainder) ← Reading.ofExcept (declaration (behindMarker position) text)
    return (← found.segment config index, remainder)
  read.outcome >>= fun
    | .ok (segment, remainder) =>
      ⟨⟨some segment, remainder⟩, [.segmentRead segment.kind.name segment.name texture]⟩
    | .error e => ⟨⟨none, .whole _ text⟩, [.segmentSkipped position texture e]⟩

theorem length_drop_marker_lt {text left right : List Char}
    (h : Text.breakOn segmentMarker text = some (left, right)) :
    (right.drop segmentMarker.length).length < text.length := by
  obtain ⟨htext, hmarker⟩ := Text.eq_of_breakOn h
  have hpos : 0 < segmentMarker.length := by decide
  have hle := hmarker.length_le
  rw [htext, List.length_append, List.length_drop]
  omega

/-- Reads the segments of a list that is at a position, from the `index`-th on. -/
def readSegments (config : Config) (texture : Texture) (index position : Nat)
    (text : List Char) : Noted (List Segment) :=
  match _h : Text.breakOn segmentMarker text with
  | none => pure []
  | some (left, right) =>
    let step := readSegment config texture index (position + Text.byteSize left)
      (right.drop segmentMarker.length)
    let remainder := step.value.remainder
    let later := readSegments config texture (index + 1) remainder.position remainder.rest.1
    ⟨step.value.segment.toList ++ later.value, step.notices ++ later.notices⟩
termination_by text.length
decreasing_by exact SegmentStep.length_rest_lt _ (length_drop_marker_lt _h)

/-- Reads a block document. -/
def readBlock (config : Config) (texture : Texture) (content : List Char) : Reading Metadata := do
  let layout ← Reading.ofExcept (Layout.of content)
  let p := blockProperties layout.header
  let segments ← Reading.ofNoted (readSegments config texture 0 layout.start layout.list)
  let header ← Reading.ofNoted ((Header.plain texture .block).withFrametime
    ((blockValue p Decimal.frame? "frametime").getD 1))
  let interpolate := (blockValue p Decimal.boolean? "interpolate").getD false
  Reading.ofExcept (Metadata.validated ⟨{ header with interpolate }, segments⟩)

end Flipbook.Document
