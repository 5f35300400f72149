/-!
# Document formats

An animation is described in one of three formats.
-/
namespace Flipbook

/-- The format of an animation description. -/
inductive Format where
  /-- The game's own metadata, in JSON: one sequence that plays without end. -/
  | vanilla
  /-- Sections in brackets with one property a line. -/
  | sectioned
  /-- Segment declarations with their properties in braces. -/
  | block
deriving DecidableEq, Repr

namespace Format

/-- The name of a format in messages. -/
def label : Format → String
  | .vanilla => "MCMETA"
  | .sectioned => "SECTIONED"
  | .block => "BLOCK"

/-- The name of a format in snapshots. -/
def keyword : Format → String
  | .vanilla => "mcmeta"
  | .sectioned => "sectioned"
  | .block => "block"

/-- The format with the given keyword. -/
def ofKeyword? : String → Option Format
  | "mcmeta" => some .vanilla
  | "sectioned" => some .sectioned
  | "block" => some .block
  | _ => none

theorem ofKeyword?_keyword (f : Format) : ofKeyword? f.keyword = some f := by
  cases f <;> rfl

end Format
end Flipbook
