import Flipbook.Json.Fault
import Flipbook.Text.Rest
import Flipbook.Text.Split

/-!
# Reading JSON text

A `Reader` takes a value from the front of a text or stops at a fault. Blanks
before a value belong to it. Readers are put together with `do`; that they come
to an end shows in the type of what they leave.
-/
namespace Flipbook.Json

open Text (Rest)

/-- Reads a value from the front of a text. -/
def Reader (α : Type) : Type := (text : List Char) → Except Fault (α × Rest text)

namespace Reader

variable {α β : Type}

instance : Monad Reader where
  pure a text := .ok (a, .whole text)
  bind x f text :=
    match x text with
    | .error e => .error e
    | .ok (a, rest) =>
      match f a rest.1 with
      | .error e => .error e
      | .ok (b, later) => .ok (b, rest.andThen later)

/-- Stops at a fault. -/
def fail (fault : Fault) : Reader α := fun _ => .error fault

/-- Gives a result, or stops at a fault. -/
def ofExcept (result : Except Fault α) : Reader α := fun text =>
  match result with
  | .ok a => .ok (a, .whole text)
  | .error fault => .error fault

/-- Looks at the character at the front. -/
def peek : Reader (Option Char) := fun text => .ok (text.head?, .whole text)

/-- Skips a character. -/
def advance : Reader Unit
  | [] => .ok ((), .whole [])
  | c :: cs => .ok ((), .behind c (.whole cs))

/-- Takes the characters of a class at the front. -/
def takeWhile (p : Char → Bool) : Reader (List Char) := fun text =>
  .ok (text.takeWhile p, .dropWhile p text)

end Reader

/-- Whether a character is a blank between tokens. -/
def isGap (c : Char) : Bool := c = ' ' || c = '\n' || c = '\t' || c = '\r'

/-- A text without the blanks at its front. -/
def skipGap (text : List Char) : Rest text := .dropWhile isGap text

namespace Reader

variable {α β : Type}

/-- Skips blanks and looks at the character behind them. -/
def next : Reader (Option Char) := fun text =>
  let rest := skipGap text
  .ok (rest.1.head?, rest)

/-- Takes one character. -/
def char (c : Char) : Reader Unit
  | [] => .error .truncated
  | d :: ds => if d = c then .ok ((), .behind d (.whole ds)) else .error .malformed

/-- Takes a word. -/
def word : List Char → Reader Unit
  | [] => pure ()
  | c :: cs => do
    char c
    word cs

/-- Takes a character behind blanks. -/
def mark (c : Char) : Reader Unit := do
  let _ ← next
  char c

/-- Reads a whole text. -/
def run (reader : Reader α) (text : List Char) : Except Fault α :=
  match reader text with
  | .error fault => .error fault
  | .ok (a, rest) => if (skipGap rest.1).1.isEmpty then .ok a else .error .malformed

end Reader

end Flipbook.Json
