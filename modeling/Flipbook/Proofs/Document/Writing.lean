import Flipbook.Proofs.Decimal.Writing
import Flipbook.Proofs.Document.WellFormed
import Flipbook.Proofs.Text.Split

/-!
# What can be written

What the documents of all formats have in common for one who writes them: numbers
must fit the fields that they are read into, and nothing may be dropped from the ends
of a text where it is trimmed.

* `Segment.InRange`, `Header.InRange`: the numbers fit.
* `IsWord.trim`, `Document.IsKey.trim`: numbers, words and keys are never trimmed.
* `codeLines_append`: a line without comments is read as it is.
* `Document.Config.exists_random`: each segment has random numbers for its condition.
* `Expression.Condition.source_read`: a condition knows the source it was read from.
-/
namespace Flipbook

open Decimal (frameBound signedBound)

/-! ## Numbers -/

/-- Whether frames are numbers that can be read. -/
structure SegmentKind.InRange (kind : SegmentKind) : Prop where
  first : kind.firstFrame < frameBound
  last : ∀ r, kind.range? = some r → r.last < frameBound

/-- Whether all the numbers of a segment can be read. -/
structure Segment.InRange (s : Segment) : Prop where
  kind : s.kind.InRange
  least : -signedBound ≤ s.priority
  greatest : s.priority < signedBound
  frametime : ∀ ticks ∈ s.frametime, ticks < frameBound

/-- Whether all the numbers of a header can be read. -/
structure Header.InRange (h : Header) : Prop where
  frametime : h.frametime < frameBound
  maxFps : ∀ rate ∈ h.maxFps, rate < frameBound

/-! ## Ends -/

theorem Decimal.not_isBlank_of_isWordChar {c : Char} (h : isWordChar c = true) :
    Text.isBlank c = false := by
  have hrange := toNat_of_isWordChar h
  rw [Text.isBlank, ← Bool.not_eq_true, Text.Ranges.holds_iff]
  simp only [Text.blankRanges, List.mem_cons, List.not_mem_nil, or_false, exists_eq_or_imp,
    exists_eq_left]
  omega

/-- A word keeps its ends where no character of words is dropped. -/
theorem Decimal.IsWord.stripWhile {word : List Char} (h : IsWord word) {p : Char → Bool}
    (hp : ∀ c, isWordChar c = true → p c = false) : Text.stripWhile p word = word :=
  Text.stripWhile_eq_self_iff.2 ⟨fun c hc => hp c (h c (List.mem_of_mem_head? hc)),
    fun c hc => hp c (h c (List.mem_of_mem_getLast? hc))⟩

theorem Decimal.IsWord.trim {word : List Char} (h : IsWord word) : Text.trim word = word :=
  h.stripWhile fun _ hc => not_isBlank_of_isWordChar hc

namespace Document

/-- Whether a text can be the key of a property: a word, with underscores in it. -/
def IsKey (key : List Char) : Prop := ∀ c ∈ key, c.isAlpha = true ∨ c = '_'

instance (key : List Char) : Decidable (IsKey key) :=
  inferInstanceAs (Decidable (∀ c ∈ key, c.isAlpha = true ∨ c = '_'))

namespace IsKey

variable {key : List Char}

theorem notMem (h : IsKey key) {c : Char} (hc : c.isAlpha = false) (hc' : c ≠ '_') : c ∉ key := by
  intro hmem
  rcases h c hmem with halpha | rfl
  · rw [hc] at halpha
    cases halpha
  · exact hc' rfl

theorem not_isBlank (h : IsKey key) : ∀ c ∈ key, Text.isBlank c = false := by
  intro c hc
  rcases h c hc with halpha | rfl
  · exact Decimal.not_isBlank_of_isWordChar (by
      simp [Decimal.isWordChar, Char.isAlphanum, halpha])
  · decide

theorem trim (h : IsKey key) : Text.trim key = key :=
  Text.stripWhile_eq_self_iff.2 ⟨fun c hc => h.not_isBlank c (List.mem_of_mem_head? hc),
    fun c hc => h.not_isBlank c (List.mem_of_mem_getLast? hc)⟩

end IsKey
end Document

/-! ## Lines -/

/-- A line that ends with neither white space nor a comment is read as it is. -/
theorem Document.codeLines_append {line : List Char} (hbreak : '\n' ∉ line) (hcomment : '#' ∉ line)
    (hend : Text.trimEnd line = line) (hne : line ≠ []) (rest : List Char) :
    codeLines (line ++ '\n' :: rest) = line :: codeLines rest := by
  rw [codeLines, Text.splitOn_append hbreak, List.map_cons, Text.before_of_notMem hcomment, hend,
    List.filter_cons_of_pos (by simpa using hne)]
  rfl

/-! ## Conditions -/

/-- What holds of each segment with the random numbers of its place holds of it with
some. -/
theorem Document.Config.exists_random {config : Config} {segments : List Segment}
    {p : Segment → Expression.Random → Prop}
    (h : ∀ entry ∈ segments.zipIdx, p entry.1 (config.random entry.2)) :
    ∀ s ∈ segments, ∃ random, p s random := by
  intro s hs
  obtain ⟨place, hplace⟩ := List.mem_iff_getElem?.1 hs
  exact ⟨_, h (s, place) (List.mem_zipIdx_iff_getElem?.2 hplace)⟩

theorem Expression.Condition.source_read (source : String) (random : Random) :
    (Condition.read source random).value.source = source := by
  unfold Condition.read Condition.parse
  cases Expression.parse source with
  | ok program => rfl
  | error e => rfl

end Flipbook
