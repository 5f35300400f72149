import Flipbook.Animation.Playback

/-!
# Snapshots

A `Snapshot` is what can be seen of an animation at a moment, in plain data.
-/
namespace Flipbook

/-- What can be seen of a segment. -/
structure SegmentSnapshot where
  name : String
  kind : String
  priority : Int
  state : SegmentState
deriving DecidableEq, Repr

/-- What can be seen of an animation. -/
structure Snapshot where
  texture : Texture
  source : Format
  frametime : Nat
  currentFrame : Nat
  segments : List SegmentSnapshot
deriving DecidableEq, Repr

/-- What can be seen of a track. -/
def Track.snapshot (t : Track) : SegmentSnapshot :=
  ⟨t.segment.name, t.segment.kind.name, t.segment.priority, t.state⟩

/-- What can be seen of an animation. -/
def Animation.snapshot (a : Animation) : Snapshot :=
  ⟨a.header.texture, a.header.source, a.header.frametime, a.currentFrame,
    a.tracks.map Track.snapshot⟩

/-- A segment on a line. -/
def SegmentSnapshot.text (s : SegmentSnapshot) : String :=
  let status := if s.state.active then "ACTIVE" else "inactive"
  s!"  - {s.name}: {status} (frame {s.state.frame}, priority {s.priority})\n"

/-- A snapshot in words, every line of it ended. -/
def Snapshot.text (s : Snapshot) : String :=
  s!"Animation: {s.texture.name} ({s.source.label})\n" ++
  s!"Frametime: {s.frametime}\n" ++
  s!"Current Frame: {s.currentFrame}\n" ++
  "Segments:\n" ++
  String.join (s.segments.map SegmentSnapshot.text)

end Flipbook
