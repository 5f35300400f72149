import Flipbook.Expression.Memory

/-!
# Reading policy

How a reader treats questionable frame numbers, and where the conditions that it
reads have their random numbers from. The policies with a name give them zeros; who
plays what was read puts other numbers in their place.
-/
namespace Flipbook.Document

/-- The policy of a reader. -/
structure Config where
  /-- A segment whose range ends before it starts is skipped; otherwise it shows
  its first frame only. -/
  rejectInverted : Bool
  /-- The number of frames that one frame list may hold. -/
  frameLimit : Nat
  /-- The random numbers of the condition of each segment, by the place of the segment. -/
  random : Nat → Expression.Random

namespace Config

/-- Collapses inverted ranges and allows 4096 frames. -/
def standard : Config := ⟨false, 4096, fun _ => .zeros⟩

/-- Collapses inverted ranges and allows very long strips. -/
def lenient : Config := ⟨false, 65536, fun _ => .zeros⟩

/-- Rejects inverted ranges and allows 1024 frames. -/
def strict : Config := ⟨true, 1024, fun _ => .zeros⟩

instance : Inhabited Config := ⟨standard⟩

end Config
end Flipbook.Document
