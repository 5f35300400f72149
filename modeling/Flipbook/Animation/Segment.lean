import Flipbook.Animation.Range
import Flipbook.Animation.Trigger

/-!
# Segments

An animation is made up of segments, each of one of four kinds. What a segment
does in time is its `SegmentState`, which starts from `Segment.initial`.
-/
namespace Flipbook

/-- The kinds of segment. -/
inductive SegmentKind where
  /-- Shows a frame while nothing of higher priority plays. -/
  | fallback (frame : Nat)
  /-- Shows a frame while it is wanted. -/
  | singleFrame (frame : Nat) (trigger : Trigger)
  /-- Plays a range while it is wanted. It may start over after the last frame,
  and it may rest on the last frame when it is no longer wanted. -/
  | sequence (range : FrameRange) (looping pauses : Bool) (trigger : Trigger)
  /-- Plays a range once and rests on its last frame. -/
  | oneShot (range : FrameRange) (trigger : Trigger)

namespace SegmentKind

/-- The name of a kind. -/
def name : SegmentKind → String
  | fallback .. => "fallback"
  | singleFrame .. => "single_frame"
  | sequence .. => "sequence"
  | oneShot .. => "oneshot"

/-- The frame that a kind starts on. -/
def firstFrame : SegmentKind → Nat
  | fallback frame => frame
  | singleFrame frame _ => frame
  | sequence range _ _ _ => range.first
  | oneShot range _ => range.first

/-- The range of a kind that moves. -/
def range? : SegmentKind → Option FrameRange
  | sequence range _ _ _ => some range
  | oneShot range _ => some range
  | _ => none

/-- The trigger of a kind, if it has one. -/
def trigger? : SegmentKind → Option Trigger
  | fallback _ => none
  | singleFrame _ trigger => some trigger
  | sequence _ _ _ trigger => some trigger
  | oneShot _ trigger => some trigger

/-- Puts another trigger in the place of the trigger. -/
def withTrigger (trigger : Trigger) : SegmentKind → SegmentKind
  | fallback frame => fallback frame
  | singleFrame frame _ => singleFrame frame trigger
  | sequence range looping pauses _ => sequence range looping pauses trigger
  | oneShot range _ => oneShot range trigger

/-- Whether a kind is wanted when its trigger has neither event nor condition. -/
def standing : SegmentKind → Bool
  | sequence .. => true
  | _ => false

/-- The priority of a segment that declares none. -/
def defaultPriority : SegmentKind → Int
  | fallback _ => -1000
  | _ => 10

end SegmentKind

/-- A segment of an animation. -/
structure Segment where
  name : String
  /-- Of several active segments the one of highest priority is shown. -/
  priority : Int
  /-- The ticks that each frame stays, where they differ from the animation's. -/
  frametime : Option Nat
  kind : SegmentKind

/-- What a segment does at a moment. -/
structure SegmentState where
  /-- The frame that it shows. -/
  frame : Nat
  active : Bool
  /-- The ticks since the frame changed last. -/
  elapsed : Nat
  /-- Whether a segment that plays once has played. -/
  played : Bool
  /-- How often it has started over. -/
  cycles : Nat
deriving DecidableEq, Repr, Inhabited

namespace Segment

/-- The segment with the default priority of its kind. -/
def ofKind (name : String) (kind : SegmentKind) : Segment :=
  ⟨name, kind.defaultPriority, none, kind⟩

/-- The fallback that shows a frame. -/
def fallback (frame : Nat) : Segment := ofKind "fallback" (.fallback frame)

/-- Whether the segment is a fallback. -/
def isFallback (s : Segment) : Bool :=
  match s.kind with
  | .fallback _ => true
  | _ => false

/-- The ticks that each frame stays, given those of the animation; never zero. -/
def effectiveFrametime (s : Segment) (default : Nat) : Nat := max 1 (s.frametime.getD default)

/-- The state at the start: on the first frame, and active only in a fallback. -/
def initial (s : Segment) : SegmentState := ⟨s.kind.firstFrame, s.isFallback, 0, false, 0⟩

end Segment
end Flipbook
