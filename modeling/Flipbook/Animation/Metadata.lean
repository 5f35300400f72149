import Flipbook.Animation.Segment

/-!
# Animation metadata

`Metadata` is all that a document says about the animation of a texture: what
holds for the whole of it, which is its `Header`, and the segments in the order
of their declaration.
-/
namespace Flipbook

/-- What holds for a whole animation. -/
structure Header where
  texture : Texture
  /-- The format of the document. -/
  source : Format
  /-- The ticks that each frame stays. -/
  frametime : Nat
  /-- Whether a renderer may blend frames. -/
  interpolate : Bool
  /-- The frame rate that a renderer keeps to. -/
  maxFps : Option Nat
  /-- The width of a frame, in the vanilla format. -/
  width : Option Nat
  /-- The height of a frame, in the vanilla format. -/
  height : Option Nat
deriving DecidableEq, Repr

/-- The description of an animation. -/
structure Metadata where
  header : Header
  segments : List Segment

namespace Header

/-- The header of an animation that changes its frame in every tick. -/
def plain (texture : Texture) (source : Format) : Header :=
  ⟨texture, source, 1, false, none, none, none⟩

/-- Sets how long each frame stays; zero counts as one and is reported. -/
def withFrametime (h : Header) (frametime : Nat) : Noted Header :=
  ⟨{ h with frametime := max 1 frametime },
    if frametime = 0 then [.frametimeClamped h.texture] else []⟩

end Header

namespace Metadata

/-- The number of fallbacks. -/
def fallbacks (m : Metadata) : Nat := m.segments.countP Segment.isFallback

/-- Refuses an animation without segments or with several fallbacks. -/
def validated (m : Metadata) : Except Document.Error Metadata :=
  if m.segments.isEmpty then .error (.noSegments m.header.texture)
  else if 1 < m.fallbacks then .error (.multipleFallbacks m.header.texture m.fallbacks)
  else .ok m

/-- How long each frame of the segment at a place stays. -/
def effectiveFrametime (m : Metadata) (index : Nat) : Nat :=
  match m.segments[index]? with
  | some segment => segment.effectiveFrametime m.header.frametime
  | none => max 1 m.header.frametime

/-- The greatest frame at which a range ends; zero where there is no range. -/
def lastFrame (m : Metadata) : Nat :=
  (m.segments.filterMap fun s => s.kind.range?.map FrameRange.last).max?.getD 0

/-- The first segment of a name. -/
def segment? (m : Metadata) (name : String) : Option Segment := m.segments.find? (·.name == name)

end Metadata
end Flipbook
