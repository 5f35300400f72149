import Flipbook.Animation.Snapshot
import Flipbook.Document.Read
import Flipbook.Game.Cache

/-!
# Registries

A `Registry` holds the animations of all textures, at most one for each, and
ticks them together: within a tick all of them get the same answer about an
event. An animation that crashes the game ends its own tick only.
-/
namespace Flipbook

open Document (Config Reading)

/-- The animations of textures. -/
structure Registry where
  animations : Table Texture Animation

namespace Registry

/-- The registry without animations. -/
def empty : Registry := ⟨∅⟩

instance : Inhabited Registry := ⟨empty⟩

/-- Puts an animation in at its start, in place of any that its texture had. -/
def register (r : Registry) (m : Metadata) : Noted Registry :=
  ⟨⟨r.animations.insert m.header.texture (.start m)⟩,
    [.registered m.header.texture m.header.source m.segments.length]⟩

/-- Reads a document and puts its animation in. -/
def load (r : Registry) (config : Config) (texture : Texture) (content : List Char) :
    Reading Registry := do
  Reading.ofNoted (r.register (← Document.read config texture content))

/-- Takes an animation out, and tells whether there was one. -/
def remove (r : Registry) (texture : Texture) : Noted (Bool × Registry) :=
  if r.animations.contains texture then ⟨(true, ⟨r.animations.erase texture⟩), [.removed texture]⟩
  else pure (false, r)

/-- Takes all animations out. -/
def clear (_ : Registry) : Noted Registry := ⟨empty, [.cleared]⟩

/-- Plays one animation in a tick. The state is that of the game, and the notices
of the tick so far. -/
def playOne {σ : Type} (player : Player) (game : Game σ) (texture : Texture) (a : Animation)
    (s : σ × List Notice) : Animation × σ × List Notice :=
  let played := a.play player game s.1
  let aborted := if played.crashed then [.tickAborted texture] else []
  (played.now, played.game, s.2 ++ played.notices ++ aborted)

/-- Plays every animation for one tick. -/
def tick {σ : Type} (r : Registry) (player : Player) (game : Game σ) (s : σ) :
    Noted (Registry × σ) :=
  let (animations, s, notices) := r.animations.mapFold (playOne player game.cached) (.fresh s, [])
  ⟨(⟨animations⟩, s.source), notices⟩

/-- The textures with an animation, in their order. -/
def textures (r : Registry) : List Texture := r.animations.keys

/-- Whether a texture has an animation. -/
def isAnimated (r : Registry) (texture : Texture) : Bool := r.animations.contains texture

/-- The frame that a texture shows; zero when nothing is active or there is no
animation. -/
def currentFrame (r : Registry) (texture : Texture) : Nat :=
  ((r.animations.get? texture).map Animation.currentFrame).getD 0

/-- The description of the animation of a texture. -/
def metadata? (r : Registry) (texture : Texture) : Option Metadata :=
  (r.animations.get? texture).map Animation.metadata

/-- What can be seen of the animation of a texture. -/
def snapshot? (r : Registry) (texture : Texture) : Option Snapshot :=
  (r.animations.get? texture).map Animation.snapshot

/-- The animation of a texture in words. -/
def describe (r : Registry) (texture : Texture) : String :=
  match r.snapshot? texture with
  | some snapshot => snapshot.text
  | none => "No animation data"

/-- The number of animations. -/
def size (r : Registry) : Nat := r.animations.size

/-- Whether there is no animation. -/
def isEmpty (r : Registry) : Bool := r.animations.isEmpty

end Registry
end Flipbook
