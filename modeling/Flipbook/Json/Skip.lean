import Flipbook.Json.Shape

/-!
# Skipping values

Members that nobody asks for are skipped. Their values have to keep to the
grammar, but code points, magnitudes and nesting are not looked at.
-/
namespace Flipbook.Json

/-- Skips a value that is nested less deep than `depth`. -/
def skipNested : Nat → Reader Unit
  | 0 => Reader.fail .truncated
  | depth + 1 => do
    match ← Reader.next with
    | none => Reader.fail .truncated
    | some c =>
      if c = 'n' then Reader.word "null".toList
      else if c = 't' then Reader.word "true".toList
      else if c = 'f' then Reader.word "false".toList
      else if startsNumber c then skipNumber
      else if c = '\x22' then do
        Reader.advance
        skipQuotedRest
      else if c = '[' then do
        Reader.advance
        let _ ← arrayRest (skipNested depth)
      else if c = '\x7b' then do
        Reader.advance
        objectRest skipQuotedRest (fun _ _ => .ok (skipNested depth)) ()
      else Reader.fail .malformed

/-- Skips a value. Each level of nesting takes a character, so the text ends
before the levels do. -/
def skip : Reader Unit := fun text => skipNested (text.length + 1) text

/-- Skips the elements of an array and counts them. -/
def countElements : Reader Nat := fun text =>
  (List.length <$> array (skipNested (text.length + 1)) : Reader Nat) text

end Flipbook.Json
