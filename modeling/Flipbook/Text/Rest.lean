import Flipbook.Text.Split

/-!
# What is left of a text

A reader takes a text from the front and leaves the rest. `Rest text` are the
texts that are no longer than `text`, so that a reader can be seen to come to an
end. A `Remainder` keeps count of the bytes as well.
-/
namespace Flipbook.Text

/-- What is left of a text. -/
abbrev Rest (text : List Char) := { rest : List Char // rest.length ≤ text.length }

namespace Rest

/-- The whole text. -/
def whole (text : List Char) : Rest text := ⟨text, Nat.le_refl _⟩

/-- What is left of what is left. -/
def andThen {text : List Char} (rest : Rest text) (later : Rest rest.1) : Rest text :=
  ⟨later.1, Nat.le_trans later.2 rest.2⟩

/-- What is left behind the first character. -/
def behind (c : Char) {text : List Char} (rest : Rest text) : Rest (c :: text) :=
  ⟨rest.1, Nat.le_succ_of_le rest.2⟩

/-- A text without the characters of a class at its front. -/
def dropWhile (p : Char → Bool) (text : List Char) : Rest text :=
  ⟨text.dropWhile p, (List.dropWhile_suffix p).length_le⟩

end Rest

/-- What is left of a text that starts at a position. -/
structure Remainder (start : Nat) (text : List Char) where
  /-- The position at which the rest starts. -/
  position : Nat
  rest : Rest text
  measured : position + byteSize rest.1 = start + byteSize text

namespace Remainder

variable {start : Nat} {text : List Char}

/-- The whole text. -/
def whole (start : Nat) (text : List Char) : Remainder start text := ⟨start, .whole text, rfl⟩

/-- What is left of what is left. -/
def andThen (r : Remainder start text) (later : Remainder r.position r.rest.1) :
    Remainder start text :=
  ⟨later.position, r.rest.andThen later.rest, later.measured.trans r.measured⟩

/-- What is left behind a part of the text. -/
def behind (start : Nat) (taken rest : List Char) (h : text = taken ++ rest) :
    Remainder start text where
  position := start + byteSize taken
  rest := ⟨rest, by rw [h, List.length_append]; exact Nat.le_add_left _ _⟩
  measured := by
    show start + byteSize taken + byteSize rest = start + byteSize text
    rw [h, byteSize_append, Nat.add_assoc]

/-- A text without the characters of a class at its front. -/
def dropWhile (p : Char → Bool) (start : Nat) (text : List Char) : Remainder start text :=
  .behind start (text.takeWhile p) (text.dropWhile p) List.takeWhile_append_dropWhile.symm

end Remainder
end Flipbook.Text
