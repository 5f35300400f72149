import Flipbook.Animation.Snapshot
import Flipbook.Decimal.Numeral
import Flipbook.Json.Skip
import Flipbook.Json.Value

/-!
# Snapshots in JSON

A snapshot is written as a JSON object on one line, with the members in a fixed
order. The state of a segment is not an object of its own: its members stand
among those of the segment. Reading takes the members in any order and skips
members that it does not know.
-/
namespace Flipbook

open Json (Reader)

/-! ## Writing -/

/-- A truth value in JSON. -/
def jsonBoolean (b : Bool) : String := if b then "true" else "false"

/-- A text in JSON. -/
def jsonText (s : String) : String := String.ofList (Json.encode s)

/-- An object in JSON, of members whose values are written already. -/
def jsonObject (members : List (String × String)) : String :=
  "\x7b" ++ String.intercalate "," (members.map fun (key, value) => jsonText key ++ ":" ++ value) ++
    "\x7d"

/-- An array in JSON, of elements that are written already. -/
def jsonArray (elements : List String) : String := "[" ++ String.intercalate "," elements ++ "]"

/-- A texture in JSON. -/
def Texture.json (t : Texture) : String :=
  jsonObject [("namespace", jsonText t.space), ("path", jsonText t.path)]

/-- A segment in JSON. -/
def SegmentSnapshot.json (s : SegmentSnapshot) : String :=
  jsonObject [("name", jsonText s.name), ("kind", jsonText s.kind),
    ("priority", toString s.priority), ("current_frame", toString s.state.frame),
    ("active", jsonBoolean s.state.active), ("tick_counter", toString s.state.elapsed),
    ("has_played", jsonBoolean s.state.played), ("cycle_count", toString s.state.cycles)]

/-- A snapshot in JSON. -/
def Snapshot.json (s : Snapshot) : String :=
  jsonObject [("texture", s.texture.json), ("source", jsonText s.source.keyword),
    ("frametime", toString s.frametime), ("current_frame", toString s.currentFrame),
    ("segments", jsonArray (s.segments.map SegmentSnapshot.json))]

/-! ## Reading -/

/-- Reads a number of ticks, frames or cycles. -/
def jsonCount : Reader Nat := Json.natural Decimal.frameBound

/-- Reads a texture. -/
def Texture.jsonReader : Reader Texture :=
  let member : Json.MemberReader String (Option String × Option String) := fun key (space, path) =>
    match key with
    | "namespace" => Json.fill space Json.string fun v => (some v, path)
    | "path" => Json.fill path Json.string fun v => (space, some v)
    | _ => .ok ((fun _ => (space, path)) <$> Json.skip)
  Json.record member (none, none) (fun (space, path) => do return ⟨← space, ← path⟩) do
    let space ← Json.firstField Json.string
    let path ← Json.nextField Json.string
    return ⟨space, path⟩

/-- Reads a format: its keyword, or an object with nothing but the keyword and
`null`. -/
def Format.jsonReader : Reader Format := do
  match ← Reader.next with
  | none => Reader.fail .truncated
  | some '\x22' => do
    Reader.advance
    keyword
  | some '\x7b' => do
    Reader.advance
    Reader.mark '\x22'
    let format ← keyword
    Reader.mark ':'
    null
    Reader.mark '\x7d'
    return format
  | _ => Reader.fail .malformed
where
  /-- Reads a keyword behind its opening quote. -/
  keyword : Reader Format := do
    match ofKeyword? (← Json.quotedRest) with
    | some format => return format
    | none => Reader.fail .mismatched
  /-- Reads `null`. -/
  null : Reader Unit := do
    match ← Reader.next with
    | some 'n' => Reader.word "null".toList
    | _ => Json.wrongShape

namespace SegmentSnapshot

/-- The members that were met in a segment so far. Those that make up the state
are kept with all others until the end. -/
structure Fields where
  name : Option String
  kind : Option String
  priority : Option Int
  others : List (String × Json.Value)

/-- The levels of arrays and objects that a value in a segment may have. -/
def nesting : Nat := 124

/-- Reads a member of a segment. -/
def member : Json.MemberReader String Fields := fun key f =>
  match key with
  | "name" => Json.fill f.name Json.string fun v => { f with name := some v }
  | "kind" => Json.fill f.kind Json.string fun v => { f with kind := some v }
  | "priority" =>
    Json.fill f.priority (Json.integer (-Decimal.signedBound) Decimal.signedBound) fun v =>
      { f with priority := some v }
  | _ => .ok ((fun v => { f with others := f.others ++ [(key, v)] }) <$> Json.value nesting)

/-- The value of a key that stands exactly once. -/
def single? (members : List (String × Json.Value)) (key : String) : Option Json.Value :=
  match members.filter (·.1 == key) with
  | [(_, value)] => some value
  | _ => none

/-- The state that members make up. -/
def state? (members : List (String × Json.Value)) : Option SegmentState := do
  let count (key : String) := (single? members key).bind (·.natural? Decimal.frameBound)
  let flag (key : String) := (single? members key).bind Json.Value.boolean?
  return {
    frame := ← count "current_frame"
    active := ← flag "active"
    elapsed := ← count "tick_counter"
    played := ← flag "has_played"
    cycles := ← count "cycle_count" }

/-- What the members of a segment amount to. -/
def ofFields? (f : Fields) : Option SegmentSnapshot := do
  return ⟨← f.name, ← f.kind, ← f.priority, ← state? f.others⟩

/-- Reads a segment. -/
def jsonReader : Reader SegmentSnapshot := do
  match ofFields? (← Json.object member ⟨none, none, none, []⟩) with
  | some s => return s
  | none => Reader.fail .mismatched

end SegmentSnapshot

namespace Snapshot

/-- The members that were met in a snapshot so far. -/
structure Fields where
  texture : Option Texture
  source : Option Format
  frametime : Option Nat
  currentFrame : Option Nat
  segments : Option (List SegmentSnapshot)

/-- Reads a member of a snapshot. -/
def member : Json.MemberReader String Fields := fun key f =>
  match key with
  | "texture" => Json.fill f.texture Texture.jsonReader fun v => { f with texture := some v }
  | "source" => Json.fill f.source Format.jsonReader fun v => { f with source := some v }
  | "frametime" => Json.fill f.frametime jsonCount fun v => { f with frametime := some v }
  | "current_frame" => Json.fill f.currentFrame jsonCount fun v => { f with currentFrame := some v }
  | "segments" =>
    Json.fill f.segments (Json.array SegmentSnapshot.jsonReader) fun v =>
      { f with segments := some v }
  | _ => .ok ((fun _ => f) <$> Json.skip)

/-- What the members of a snapshot amount to. -/
def ofFields? (f : Fields) : Option Snapshot := do
  return ⟨← f.texture, ← f.source, ← f.frametime, ← f.currentFrame, ← f.segments⟩

/-- Reads a snapshot. -/
def jsonReader : Reader Snapshot :=
  Json.record member ⟨none, none, none, none, none⟩ ofFields? do
    let texture ← Json.firstField Texture.jsonReader
    let source ← Json.nextField Format.jsonReader
    let frametime ← Json.nextField jsonCount
    let currentFrame ← Json.nextField jsonCount
    let segments ← Json.nextField (Json.array SegmentSnapshot.jsonReader)
    return ⟨texture, source, frametime, currentFrame, segments⟩

/-- Reads the JSON text of a snapshot. -/
def ofJson (text : String) : Except Json.Fault Snapshot := jsonReader.run text.toList

end Snapshot
end Flipbook
