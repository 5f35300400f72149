/-!
# Frame ranges

A segment that moves plays the frames from a first to a last one.
-/
namespace Flipbook

/-- The frames from `first` to `last`, both included. -/
structure FrameRange where
  first : Nat
  last : Nat
deriving DecidableEq, Repr, Inhabited

namespace FrameRange

/-- The range of one frame. -/
def single (frame : Nat) : FrameRange := ⟨frame, frame⟩

/-- The least range around some frames; frame zero stands for none. -/
def spanning (frames : List Nat) : FrameRange := ⟨frames.min?.getD 0, frames.max?.getD 0⟩

/-- The number of frames. A range holds one at least. -/
def length (r : FrameRange) : Nat := r.last - r.first + 1

/-- Whether a frame lies in the range. -/
def contains (r : FrameRange) (frame : Nat) : Bool := r.first ≤ frame && frame ≤ r.last

/-- The range in words. -/
def text (r : FrameRange) : String := s!"{r.first}-{r.last}"

end FrameRange
end Flipbook
