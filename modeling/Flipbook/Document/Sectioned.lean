import Flipbook.Animation.Metadata
import Flipbook.Document.Config
import Flipbook.Document.Frames
import Flipbook.Document.Lines
import Flipbook.Document.Section
import Flipbook.Text.Case

/-!
# Sectioned documents

A sectioned document is a series of sections, each under a header in brackets,
with one property a line:

    [animation]
    frametime: 2

    [variables]
    walk: 0-7

    [segment:limp]
    frames: $walk
    when: health < 6
        && hunger > 2     # an indented line continues the one before it

The sections are processed one after the other into a `Draft`. A section that
fails is reported and skipped (`Draft.process`).
-/
namespace Flipbook.Document

/-! ## Properties -/

/-- The properties of a section. -/
abbrev Properties := Table String (List Char)

namespace Properties

/-- Adds a property. The values of a key that stands several times are joined
with blanks. -/
def add (p : Properties) (key : String) (value : List Char) : Properties :=
  match p.get? key with
  | some earlier => p.insert key (earlier ++ ' ' :: value)
  | none => p.insert key value

/-- The value of a key, as far as it can be read. -/
def read {α : Type} (p : Properties) (reader : List Char → Option α) (key : String) : Option α :=
  (p.get? key).bind reader

end Properties

/-! ## Sections -/

/-- Whether a line opens a section. -/
def isHeader (line : List Char) : Bool := line.head? = some '[' && line.getLast? = some ']'

/-- The lines before the first section, and the sections with their lines. -/
def sections : List (List Char) → List (List Char) × List (Section × List (List Char))
  | [] => ([], [])
  | line :: rest =>
    let (body, later) := sections rest
    if isHeader line then ([], (Section.ofHeader line, body) :: later) else (line :: body, later)

/-- The property on a line. Lines without a colon hold none. -/
def property? (line : List Char) : Option (String × List Char) :=
  (Text.cut ':' line).map fun (key, value) => (String.ofList (Text.trim key), Text.trim value)

/-- The properties on some lines. -/
def propertiesOf (lines : List (List Char)) : Properties :=
  (lines.filterMap property?).foldl (fun p (key, value) => p.add key value) ∅

/-! ## Segments -/

/-- The kinds of segment in a sectioned document. -/
inductive SectionedKind where
  | single
  | sequence
  /-- A choice by chance, which plays as a sequence that starts over. -/
  | weighted
  /-- A choice by condition, which plays as a sequence that starts over. -/
  | conditional
  | oneShot
deriving DecidableEq, Repr

/-- The kind with the given name. -/
def SectionedKind.ofName? : String → Option SectionedKind
  | "single" => some .single
  | "sequence" => some .sequence
  | "weighted" => some .weighted
  | "conditional" => some .conditional
  | "transition" => some .oneShot
  | "oneshot" => some .oneShot
  | _ => none

/-- What the sections of a document have come to so far. -/
structure Draft where
  frametime : Nat
  interpolate : Bool
  maxFps : Option Nat
  substitutions : Substitutions
  segments : List Segment

namespace Draft

/-- The draft before the first section. -/
def blank : Draft := ⟨1, false, none, .empty, []⟩

/-- The frames of a list. -/
def frames (d : Draft) (config : Config) (spec : List Char) : Reading (List Nat) :=
  resolveFrames d.substitutions config.frameLimit spec

/-- The frame of a segment that shows one: the first of a list. -/
def frame (d : Draft) (config : Config) (p : Properties) : Reading Nat := do
  return (← d.frames config (p.getD "frame" ['0'])).head?.getD 0

/-- The range of a segment that moves: all that a list spans. -/
def range (d : Draft) (config : Config) (p : Properties) (default : String) :
    Reading FrameRange := do
  return .spanning (← d.frames config (p.getD "frames" default.toList))

/-- The trigger of a segment. -/
def trigger (d : Draft) (config : Config) (p : Properties) : Noted Trigger := do
  let source := Text.trim (← d.substitutions.expand (p.getD "when" []))
  if source.isEmpty then return .none
  else
    let random := config.random d.segments.length
    return .ofCondition (← Expression.Condition.read (String.ofList source) random)

/-- The kind of a segment, with all that belongs to it. -/
def segmentKind (d : Draft) (config : Config) (name : String) (p : Properties) :
    Reading SegmentKind := do
  let kind := Text.toLower (String.ofList (p.getD "type" "sequence".toList))
  let trigger ← Reading.ofNoted (d.trigger config p)
  let degraded (default : String) : Reading SegmentKind := do
    Reading.note (.kindDegraded name kind)
    return .sequence (← d.range config p default) true false trigger
  match SectionedKind.ofName? kind with
  | some .single => return .singleFrame (← d.frame config p) trigger
  | some .sequence =>
    return .sequence (← d.range config p "0-0") ((p.read Decimal.boolean? "loop").getD true)
      ((p.read Decimal.boolean? "pause_on_last").getD false) trigger
  | some .weighted => degraded "[0]"
  | some .conditional => degraded "0-0"
  | some .oneShot => return .oneShot (← d.range config p "0-0") trigger
  | none => throw (.unknownKind kind)

/-- The segment of a section. -/
def segment (d : Draft) (config : Config) (name : String) (p : Properties) : Reading Segment := do
  let plain := Segment.ofKind name (← d.segmentKind config name p)
  return { plain with
    priority := (p.read Decimal.integer? "priority").getD plain.priority
    frametime := p.read Decimal.frame? "frametime" }

/-- Works a section in. -/
def extend (d : Draft) (config : Config) (texture : Texture) (heading : Section) (p : Properties) :
    Reading Draft :=
  match heading with
  | .animation => return { d with
      frametime := (p.read Decimal.frame? "frametime").getD 1
      interpolate := (p.read Decimal.boolean? "interpolate").getD false
      maxFps := (p.read Decimal.frame? "max_fps").or d.maxFps }
  | .variableTexts => return { d with
      substitutions := p.entries.foldl (fun s (name, text) => s.defineVariable name text)
        d.substitutions }
  | .conditionTexts => return { d with
      substitutions := p.entries.foldl (fun s (name, text) => s.defineCondition name text)
        d.substitutions }
  | .fallback => do
    let segment := { Segment.fallback (← d.frame config p) with
      frametime := p.read Decimal.frame? "frametime" }
    return { d with segments := d.segments ++ [segment] }
  | .segment name => do
    let segment ← d.segment config name p
    return { d with segments := d.segments ++ [segment] }
  | .unknown name => do
    Reading.note (.sectionIgnored name texture)
    return d

/-- Works a section in, or reports why it cannot be. -/
def process (config : Config) (texture : Texture) (d : Draft)
    (part : Section × List (List Char)) : Noted Draft := do
  match ← (d.extend config texture part.1 (propertiesOf part.2)).outcome with
  | .ok extended => return extended
  | .error e => ⟨d, [.sectionSkipped part.1 texture e]⟩

end Draft

/-- Reads a sectioned document. -/
def readSectioned (config : Config) (texture : Texture) (content : List Char) :
    Reading Metadata := do
  let (stray, parts) := sections (logicalLines content)
  let ignored := stray.filter fun line => (property? line).isSome
  Reading.ofNoted ⟨(), ignored.map fun line => .lineIgnored (String.ofList line) texture⟩
  let draft ← Reading.ofNoted (parts.foldlM (Draft.process config texture) .blank)
  let header ← Reading.ofNoted ((Header.plain texture .sectioned).withFrametime draft.frametime)
  let header := { header with interpolate := draft.interpolate, maxFps := draft.maxFps }
  Reading.ofExcept (Metadata.validated ⟨header, draft.segments⟩)

end Flipbook.Document
